import Mathlib.Logic.Relation
import StoryKnobs.FileTree.Race
import StoryKnobs.Proofs.Places

/-!
# The calls of a writer

A writer that makes its calls without being disturbed does what writing a new text does. If its path
is direct and no file is above its place, none of its calls fails, and each call changes the disk by
little more than the file of the writer, whatever else is on the disk.
-/

namespace StoryKnobs.Disk

open Relation (ReflTransGen)

variable {writer : Writer} {disk other : Disk} {place location : Location} {path : Path}
  {entry : Entry} {phase next : Phase} {reserved : Location → Prop}

/-! ### A writer that is alone -/

theorem find_ne_alreadyExists : disk.find path ≠ .error .alreadyExists := by
  intro hfind
  rw [find] at hfind
  cases hroute : routeOf path with
  | error error =>
      rw [hroute] at hfind
      obtain rfl : error = .alreadyExists := Except.error.inj hfind
      exact routeOf_ne_alreadyExists hroute
  | ok route =>
      rw [hroute] at hfind
      simp only [bind, Except.bind] at hfind
      split at hfind
      · rename_i error hfollow
        obtain rfl : error = .alreadyExists := Except.error.inj hfind
        exact follow_ne_alreadyExists _ _ hfollow
      · rw [visit] at hfind
        split at hfind <;> cases hfind

theorem exists_stageAs_eq (hroom : HasRoom disk.workingDirectory path) :
    ∃ name, disk.stageAs (stagingDirectory path) name = disk.stage (stagingDirectory path) path := by
  cases hfind : disk.find (stagingDirectory path) with
  | error error =>
      refine ⟨"", ?_⟩
      rw [stageAs, stage_of_hasRoom hroom, hfind]
      rfl
  | ok found =>
      obtain ⟨above, entry⟩ := found
      refine ⟨disk.freshName above path.fileName?, ?_⟩
      rw [stageAs, stage_of_hasRoom hroom, hfind]
      cases entry with
      | file bytes => rfl
      | directory => simp only [bind, Except.bind, (freshName_spec disk above path.fileName?).2]

theorem stage_ne_alreadyExists {directory : Path} :
    disk.stage directory path ≠ .error .alreadyExists := by
  intro hstage
  rw [stage] at hstage
  split_ifs at hstage with hlong
  · cases hstage
  cases hfind : disk.find directory with
  | error error =>
      rw [hfind] at hstage
      obtain rfl : error = .alreadyExists := Except.error.inj hstage
      exact find_ne_alreadyExists hfind
  | ok found =>
      obtain ⟨above, entry⟩ := found
      rw [hfind] at hstage
      cases entry <;> cases hstage

/-- Writing is what a writer does that stages its text under the same name. -/
theorem Writer.steps_writeNew (writer : Writer) (disk : Disk)
    (hroom : HasRoom (disk.makeParent writer.path).2.workingDirectory writer.path)
    (hreserved : ∀ staged other,
      (disk.makeParent writer.path).2.stage (stagingDirectory writer.path) writer.path =
        .ok (staged, other) → ¬ reserved staged) :
    ReflTransGen (writer.Step reserved) (disk, .looking)
      ((writeNew .none disk writer.path writer.text).2,
        .finished (writeNew .none disk writer.path writer.text).1) := by
  rw [writeNew_eq]
  split_ifs with hlook
  · exact .single (.found hlook)
  · refine .head (.missed (by simpa using hlook)) ?_
    obtain ⟨result, made, hmake⟩ : ∃ result made, disk.makeParent writer.path = (result, made) :=
      ⟨_, _, rfl⟩
    rw [hmake] at hroom hreserved ⊢
    cases result with
    | error error => exact .single (.unmade hmake)
    | ok value =>
        refine .head (.made hmake) ?_
        obtain ⟨name, hname⟩ := exists_stageAs_eq hroom
        dsimp only
        rw [persist, run_none]
        cases hstage : made.stage (stagingDirectory writer.path) writer.path with
        | error error =>
            refine .single (.unstaged (hname.trans hstage) ?_)
            rintro rfl
            exact stage_ne_alreadyExists hstage
        | ok found =>
            obtain ⟨staged, other⟩ := found
            refine .head (.staged (hname.trans hstage) (hreserved staged other hstage)) ?_
            refine .head .filled ?_
            have hfill : Faults.none.fault? .fill = none := rfl
            dsimp only
            rw [hfill, run_none]
            cases hpublish : (other.fill staged writer.text).publish staged writer.path with
            | ok published => exact .single (.published hpublish)
            | error error =>
                have hrefused : ReflTransGen (writer.Step reserved)
                    (other.fill staged writer.text, .publishing staged)
                    (Disk.remove (other.fill staged writer.text) staged,
                      .finished (refusal error)) :=
                  .head (.refused hpublish) (.single .discarded)
                cases error <;> exact hrefused

/-! ### What a writer has put on the disk -/

def Phase.file? (writer : Writer) (place : Location) : Phase → Option (Location × Entry)
  | .filling staged => some (staged, .file .empty)
  | .publishing staged => some (staged, .file writer.text.toUTF8)
  | .discarding staged _ => some (staged, .file writer.text.toUTF8)
  | .finished (.ok .written) => some (place, .file writer.text.toUTF8)
  | _ => none

def Phase.isFurnished : Phase → Bool
  | .looking => false
  | .making => false
  | _ => true

def Phase.Puts (writer : Writer) (place : Location) (phase : Phase) (location : Location)
    (entry : Entry) : Prop :=
  phase.file? writer place = some (location, entry) ∨
    phase.isFurnished = true ∧ entry = .directory ∧ location <+: place ∧ location ≠ place

theorem Phase.isFurnished_of_file? (hfile : phase.file? writer place = some (location, entry)) :
    phase.isFurnished = true := by
  cases phase <;> first | rfl | cases hfile

theorem Phase.not_puts (hfurnished : phase.isFurnished = false) :
    ¬ phase.Puts writer place location entry := by
  rintro (hfile | ⟨htrue, -⟩)
  · rw [isFurnished_of_file? hfile] at hfurnished
    cases hfurnished
  · rw [htrue] at hfurnished
    cases hfurnished

/-! ### What a call does -/

/-- What a call of a writer does to the disk, by the place of its path. -/
inductive Effect (writer : Writer) (place : Location) (reserved : Location → Prop) :
    Disk × Phase → Disk × Phase → Prop where
  | found {disk : Disk} (hentry : disk.entry? place ≠ none) :
      Effect writer place reserved (disk, .looking) (disk, .finished (.ok .alreadyExists))
  | missed {disk : Disk} : Effect writer place reserved (disk, .looking) (disk, .making)
  | made {disk other : Disk} {above : Location} {name : String} (hplace : place = above ++ [name])
      (hplaced : Placed disk other above .directory) :
      Effect writer place reserved (disk, .making) (other, .staging)
  | staged {disk : Disk} {above : Location} {name temporary : String}
      (hplace : place = above ++ [name]) (hfree : disk.entry? (above ++ [temporary]) = none)
      (hreserved : ¬ reserved (above ++ [temporary])) :
      Effect writer place reserved (disk, .staging)
        (disk.add (above ++ [temporary]) (.file .empty), .filling (above ++ [temporary]))
  | filled {disk : Disk} {staged : Location} :
      Effect writer place reserved (disk, .filling staged)
        (disk.fill staged writer.text, .publishing staged)
  | published {disk : Disk} {staged : Location} (hnone : disk.entry? place = none) :
      Effect writer place reserved (disk, .publishing staged)
        ((disk.remove staged).add place (.file writer.text.toUTF8), .finished (.ok .written))
  | refused {disk : Disk} {staged : Location} (hentry : disk.entry? place ≠ none) :
      Effect writer place reserved (disk, .publishing staged)
        (disk, .discarding staged (.ok .alreadyExists))
  | discarded {disk : Disk} {staged : Location} {result : Except FileError WriteOutcome} :
      Effect writer place reserved (disk, .discarding staged result)
        (disk.remove staged, .finished result)

theorem stageAs_eq {directory : Path} {above : Location}
    (hfind : disk.find directory = .ok (above, .directory)) (name : String) :
    disk.stageAs directory name =
      if disk.entry? (above ++ [name]) = none then
        .ok (above ++ [name], disk.add (above ++ [name]) (.file .empty))
      else .error .alreadyExists := by
  rw [stageAs, hfind]
  simp only [bind, Except.bind]
  cases hentry : disk.entry? (above ++ [name]) <;> rfl

/-- No call fails if the path is direct and no file is above its place. -/
theorem Writer.Step.effect (htree : disk.IsTree) (hdirect : writer.path.IsDirect)
    (hclear : disk.IsClear (disk.placeOf writer.path))
    (hheld : ∀ location entry, phase.Puts writer (disk.placeOf writer.path) location entry →
      disk.entry? location = some entry)
    (hstep : writer.Step reserved (disk, phase) (other, next)) :
    Effect writer (disk.placeOf writer.path) reserved (disk, phase) (other, next) := by
  obtain ⟨-, above, name, -, -, hplace, -⟩ := exists_leadsAbove disk hdirect
  -- From staging on, the directory above is one that the writer has seen to.
  have habove (hfurnished : phase.isFurnished = true) : disk.entry? above = some .directory := by
    refine hheld above _ (.inr ⟨hfurnished, rfl, ?_, ?_⟩)
    · rw [hplace]
      exact List.prefix_append above [name]
    · simp [hplace]
  have hcontains := contains_eq htree hdirect hclear
  cases hstep with
  | found hlook =>
      rw [hcontains, Option.isSome_iff_ne_none] at hlook
      exact .found hlook
  | missed hlook => exact .missed
  | made hmake =>
      rw [hplace] at hclear ⊢
      obtain ⟨found, hfound, hplaced⟩ := exists_makeParent_eq htree hdirect hplace hclear
      rw [hfound] at hmake
      cases hmake
      exact .made rfl hplaced
  | unmade hmake =>
      rw [hplace] at hclear
      obtain ⟨found, hfound, -⟩ := exists_makeParent_eq htree hdirect hplace hclear
      rw [hfound] at hmake
      cases hmake
  | staged hstage hreserved =>
      rw [stageAs_eq (find_stagingDirectory htree hdirect hplace (habove rfl))] at hstage
      split_ifs at hstage with hfree
      cases hstage
      exact .staged hplace hfree hreserved
  | unstaged hstage hne =>
      rw [stageAs_eq (find_stagingDirectory htree hdirect hplace (habove rfl))] at hstage
      split_ifs at hstage with hfree
      cases hstage
      exact absurd rfl hne
  | filled => exact .filled
  | published hpublish =>
      have hstaged := hheld _ _ (.inl rfl)
      cases hentry : disk.entry? (disk.placeOf writer.path) with
      | none =>
          have hfree := publish_of_free htree hdirect hplace (habove rfl) (hplace ▸ hentry) hstaged
          rw [hfree] at hpublish
          cases hpublish
          rw [← hplace]
          exact .published hentry
      | some found =>
          rw [publish_of_entry htree hdirect hplace (hplace ▸ hentry)] at hpublish
          cases hpublish
  | refused hpublish =>
      have hstaged := hheld _ _ (.inl rfl)
      cases hentry : disk.entry? (disk.placeOf writer.path) with
      | none =>
          have hfree := publish_of_free htree hdirect hplace (habove rfl) (hplace ▸ hentry) hstaged
          rw [hfree] at hpublish
          cases hpublish
      | some found =>
          rw [publish_of_entry htree hdirect hplace (hplace ▸ hentry)] at hpublish
          cases hpublish
          exact .refused (by simp [hentry])
  | discarded => exact .discarded

end StoryKnobs.Disk

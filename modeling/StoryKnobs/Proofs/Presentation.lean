import StoryKnobs.FileTree.Memory
import StoryKnobs.Proofs.Arguments
import StoryKnobs.Proofs.Runs

/-!
# Presentation options do not interfere

The presentation options decide how the result of a task is told. So runs that differ in these
options only do the same, and a quiet run tells nothing.
-/

namespace StoryKnobs.Command

variable {σ : Type} [FileTree (StateM σ)] {arguments others : List String}
  {settings quieter : Settings} {task done : Task}

theorem code_report (settings quieter : Settings) (events told : List Log.Event) (result : Result) :
    (result.report settings events).code = (result.report quieter told).code := by
  cases result <;> rfl

theorem report_congr (hformat : settings.format = quieter.format)
    (hquiet : settings.quiet = quieter.quiet) (events told : List Log.Event) (result : Result) :
    (result.report settings events).output = (result.report quieter told).output ∧
      (result.report settings events).failures = (result.report quieter told).failures := by
  have hsucceeded (output : String) : (succeeded settings events output).output =
      (succeeded quieter told output).output := by
    simp only [succeeded, hquiet]
  cases result with
  | listed file inputs =>
      refine ⟨?_, by simp [Result.report]⟩
      rw [Result.report, Result.report, hformat]
      exact hsucceeded _
  | made outcome =>
      refine ⟨?_, by simp [Result.report]⟩
      rw [Result.report, Result.report, hformat]
      exact hsucceeded _
  | failure message => exact ⟨rfl, by simp [Result.report, hformat, hquiet]⟩

theorem report_of_quiet (hquiet : settings.quiet = true) (events : List Log.Event)
    (result : Result) : (result.report settings events).output = "" ∧
      ∀ notice ∈ (result.report settings events).notices, ∃ event, notice = .log event := by
  have hshown : ∀ notice ∈ shown settings events, ∃ event, notice = .log event := by
    intro notice hmem
    obtain ⟨event, -, rfl⟩ := List.mem_map.mp hmem
    exact ⟨event, rfl⟩
  cases result with
  | listed file inputs => exact ⟨by simp [Result.report, succeeded, hquiet], hshown⟩
  | made outcome => exact ⟨by simp [Result.report, succeeded, hquiet], hshown⟩
  | failure message =>
      refine ⟨rfl, ?_⟩
      simpa [Result.report, failed, hquiet] using hshown

/-- **Presentation options do not interfere.** Two runs whose arguments differ in presentation
options only end with the same code and leave the same files. If they also agree in the format and
in being quiet, they say the same, but for the log. A quiet run says nothing but the log. -/
theorem run_of_bare_eq (hbare : bare arguments = bare others)
    (hread : read arguments = .ok (settings, task)) (hother : read others = .ok (quieter, done))
    (store : σ) :
    let told := (run arguments : StateM σ Report) store
    let otherTold := (run others : StateM σ Report) store
    told.1.code = otherTold.1.code ∧ told.2 = otherTold.2 ∧
    (settings.format = quieter.format → settings.quiet = quieter.quiet →
      told.1.output = otherTold.1.output ∧ told.1.failures = otherTold.1.failures) ∧
    (settings.quiet = true →
      told.1.output = "" ∧ ∀ notice ∈ told.1.notices, ∃ event, notice = .log event) := by
  obtain rfl : task = done := by
    have hsame := read_bare hother
    rw [← hbare, read_bare hread] at hsame
    cases hsame
    rfl
  obtain ⟨events, hrun⟩ := reports_run hread store
  obtain ⟨told, hotherRun⟩ := reports_run hother store
  dsimp only
  rw [hrun, hotherRun]
  exact ⟨code_report .., rfl, fun hformat hquiet => report_congr hformat hquiet events told _,
    fun hquiet => report_of_quiet hquiet events _⟩

/-- A story is made by three runs, one of which logs what it does and one of which is quiet. -/
theorem run_of_bare_eq_card :
    let plain := ["generate", "--schema", "card.json"]
    let wordy := ["-v", "generate", "--schema", "card.json"]
    let quiet := ["--quiet", "generate", "--schema", "card.json"]
    let store := Memory.ofFiles
      [(⟨"card.json"⟩, "[\"lib\", \"ui.module.ts\", \"UiModule\", \"Card\", \"card\", \"card\"]"),
        (⟨"lib/card/card.ts"⟩, "class Card \x7b\n  @Input() size = 2;\n\x7d\n")]
    let told := (run plain : StateM Memory Report) store
    let wordyTold := (run wordy : StateM Memory Report) store
    let quietTold := (run quiet : StateM Memory Report) store
    bare wordy = bare plain ∧ bare quiet = bare plain ∧
    told.1.output = "CREATE lib/card/card.stories.ts\n" ∧ told.2 ≠ store ∧
    wordyTold.1.output = told.1.output ∧ wordyTold.2 = told.2 ∧
    quietTold.1.output = "" ∧ quietTold.2 = told.2 := by
  intro plain wordy quiet store told wordyTold quietTold
  have htask : read plain =
      .ok (⟨.text, false, false⟩, .generate (some ⟨"card.json"⟩) .empty) := by rfl
  have hwordy : read wordy =
      .ok (⟨.text, false, true⟩, .generate (some ⟨"card.json"⟩) .empty) := by rfl
  have hquiet : read quiet =
      .ok (⟨.text, true, false⟩, .generate (some ⟨"card.json"⟩) .empty) := by rfl
  have hbareWordy : bare wordy = bare plain := by rfl
  have hbareQuiet : bare quiet = bare plain := by rfl
  obtain ⟨-, hwordyStore, hwordyOutput, -⟩ := run_of_bare_eq hbareWordy hwordy htask store
  obtain ⟨-, hquietStore, -, hquietOutput⟩ := run_of_bare_eq hbareQuiet hquiet htask store
  exact ⟨hbareWordy, hbareQuiet, by decide +kernel, by decide +kernel, (hwordyOutput rfl rfl).1,
    hwordyStore, (hquietOutput rfl).1, hquietStore⟩

end StoryKnobs.Command

import Mathlib
import StoryKnobs.Command.Result

/-!
# Runs and results

A run reports the result of its task, with events that are told on the way. So the settings decide
about the report, and about nothing else.
-/

namespace StoryKnobs.Command

variable {σ : Type} {settings : Settings} {result : Result} {events : List Log.Event}

/-- From any state, an action reports the result that another one gives, and leaves the state that
the other one leaves. -/
def Reports (settings : Settings) (action : StateM σ Report) (other : StateM σ Result) : Prop :=
  ∀ store, ∃ events, action store = ((other store).1.report settings events, (other store).2)

theorem reports_pure (events : List Log.Event) (result : Result) :
    Reports settings (pure (result.report settings events) : StateM σ Report) (pure result) :=
  fun _ => ⟨events, rfl⟩

theorem reports_bind {α : Type} {action : StateM σ α} {next : α → StateM σ Report}
    {other : α → StateM σ Result} (hnext : ∀ value, Reports settings (next value) (other value)) :
    Reports settings (action >>= next) (action >>= other) :=
  fun store => hnext (action store).1 (action store).2

section

variable [FileTree (StateM σ)] {arguments : List String} {task : Task}

theorem reports_runInputs (file : Path) :
    Reports settings (runInputs settings file : StateM σ Report) (Task.inputs file).result := by
  rw [runInputs, Task.result, inputsAt, bind_assoc]
  refine reports_bind fun loaded => ?_
  cases loaded with
  | error error => exact reports_pure [] (.failure _)
  | ok source => exact reports_pure (Log.ofSource source) (.listed file source.inputs)

theorem reports_runGenerate (schemaFile : Option Path) (fields : Schema.Draft) :
    Reports settings (runGenerate settings schemaFile fields : StateM σ Report)
      (Task.generate schemaFile fields).result := by
  rw [runGenerate, Task.result]
  refine reports_bind fun resolved => ?_
  cases resolved with
  | error error => exact reports_pure [] (.failure _)
  | ok schema =>
      dsimp only
      rw [Schema.generate, bind_assoc]
      refine reports_bind fun loaded => ?_
      cases loaded with
      | error error => exact reports_pure [Log.ofSchema schema] (.failure _)
      | ok source =>
          refine reports_bind fun written => ?_
          cases written with
          | error error => exact reports_pure _ (.failure _)
          | ok outcome => exact reports_pure _ (.made outcome)

theorem reports_run (hread : read arguments = .ok (settings, task)) :
    Reports settings (run arguments : StateM σ Report) task.result := by
  rw [run, hread]
  cases task with
  | generate schemaFile fields => exact reports_runGenerate schemaFile fields
  | inputs file => exact reports_runInputs file

end

/-! ### What reports say -/

section

variable (settings : Settings) (events : List Log.Event)

theorem failures_shown : (shown settings events).filterMap Notice.failure? = [] := by
  rw [shown, List.filterMap_map]
  exact List.filterMap_eq_nil_iff.mpr fun _ _ => rfl

@[simp]
theorem failures_succeeded (output : String) :
    (succeeded settings events output).failures = [] := failures_shown settings events

@[simp]
theorem failures_failed (message : String) : (failed settings events message).failures =
    if settings.quiet then [] else [failureText settings.format message] := by
  rw [failed, Report.failures, List.filterMap_append, failures_shown, List.nil_append]
  split <;> rfl

@[simp]
theorem errors_succeeded (output : String) : (succeeded settings events output).errors = "" := by
  rw [Report.errors, failures_succeeded]
  rfl

theorem errors_failed (hquiet : settings.quiet = false) (message : String) :
    (failed settings events message).errors = failureText settings.format message ++ "\n" := by
  simp [Report.errors, hquiet]

theorem output_succeeded (hquiet : settings.quiet = false) (output : String) :
    (succeeded settings events output).output = output := by
  simp [succeeded, hquiet]

end

end StoryKnobs.Command

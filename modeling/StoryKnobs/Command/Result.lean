import StoryKnobs.Command.Run

/-!
# Results of tasks

What a run comes to, apart from how it is told: a task gives a result on a file tree, and the
settings decide what a report says of the result.
-/

namespace StoryKnobs.Command

inductive Result where
  | listed (file : Path) (inputs : List Input)
  | made (outcome : GenerateOutcome)
  | failure (message : String)
deriving DecidableEq, Repr, Inhabited

namespace Result

def report (settings : Settings) (events : List Log.Event) : Result → Report
  | listed file inputs => succeeded settings events (inputsText settings.format file inputs)
  | made outcome => succeeded settings events (outcomeText settings.format outcome)
  | failure message => failed settings events message

end Result

section

variable {m : Type → Type} [Monad m] [FileTree m]

def Task.result : Task → m Result
  | .generate schemaFile fields => do
    match ← resolve schemaFile fields with
    | .error error => return .failure ("error: " ++ error.message)
    | .ok schema =>
      match ← schema.generate with
      | .error error => return .failure ("story generation error: " ++ error.message)
      | .ok outcome => return .made outcome
  | .inputs file => do
    match ← inputsAt file with
    | .error error => return .failure ("error: " ++ error.message)
    | .ok found => return .listed file found

end

def Notice.failure? : Notice → Option String
  | .log _ => none
  | .failure text => some text

namespace Report

/-- What a run tells on the error channel apart from the log. -/
def failures (report : Report) : List String := report.notices.filterMap Notice.failure?

/-- What a run writes on the error channel apart from the log, each failure on a line of its own. -/
def errors (report : Report) : String := String.join (report.failures.map (· ++ "\n"))

end Report

end StoryKnobs.Command

import Mathlib
import StoryKnobs.FileTree.Memory
import StoryKnobs.Proofs.Documents
import StoryKnobs.Proofs.Runs

/-!
# Reports in JSON

A run that talks in JSON writes one document, to its output or to the error channel. What its task
has come to is read back from the document, whatever characters are in it.
-/

namespace StoryKnobs.Command

open Json (Value)

/-- What a result is in JSON. A missing default is `null`, and every other part is a text. -/
def Result.value : Result → Value
  | .listed _ inputs => .array (inputs.map fun input =>
      .object
        [("name", .string input.name), ("type", .string input.knob.name),
          ("defaultValue", input.defaultValue.elim .null .string)])
  | .made outcome =>
    .object
      [("path", .string outcome.path.text),
        ("status", .string (if outcome.isCreated then "created" else "skipped"))]
  | .failure message => .object [("error", .string message)]

theorem isNumberFree_inputValue (input : Input) : (inputValue input).IsNumberFree := by
  have hdefault : (input.defaultValue.elim Value.null Value.string).IsNumberFree := by
    cases input.defaultValue with
    | none => exact .null
    | some text => exact .string text
  refine .object fun member hmem => ?_
  simp only [List.mem_cons, List.not_mem_nil, or_false] at hmem
  obtain rfl | rfl | rfl := hmem
  · exact .string _
  · exact .string _
  · exact hdefault

theorem isNumberFree_value (result : Result) : result.value.IsNumberFree := by
  cases result with
  | listed file inputs =>
      refine .array fun element hmem => ?_
      obtain ⟨input, -, rfl⟩ := List.mem_map.mp hmem
      exact isNumberFree_inputValue input
  | made outcome =>
      refine .object fun member hmem => ?_
      simp only [List.mem_cons, List.not_mem_nil, or_false] at hmem
      obtain rfl | rfl := hmem
      · exact .string _
      · exact .string _
  | failure message =>
      refine .object fun member hmem => ?_
      obtain rfl := List.mem_singleton.mp hmem
      exact .string _

/-- The document that tells a result: in one piece for a failure, and else over several lines. -/
def Result.document : Result → String
  | .failure message => (Result.failure message).value.compact
  | result => result.value.pretty

theorem parse_document (result : Result) : Value.parse result.document = .ok result.value := by
  have hfree := isNumberFree_value result
  cases result with
  | listed file inputs => exact Value.parse_pretty hfree
  | made outcome => exact Value.parse_pretty hfree
  | failure message => exact Value.parse_compact hfree

variable {settings : Settings}

theorem report_json (hformat : settings.format = .json) (hquiet : settings.quiet = false)
    (events : List Log.Event) (result : Result) :
    match result with
    | .failure _ =>
      (result.report settings events).code = 1 ∧ (result.report settings events).output = "" ∧
        (result.report settings events).errors = result.document ++ "\n"
    | _ =>
      (result.report settings events).code = 0 ∧
        (result.report settings events).output = result.document ++ "\n" ∧
        (result.report settings events).errors = "" := by
  have hsucceeded (output : String) : (succeeded settings events output).code = 0 ∧
      (succeeded settings events output).output = output ∧
      (succeeded settings events output).errors = "" :=
    ⟨rfl, output_succeeded settings events hquiet output, errors_succeeded settings events output⟩
  cases result with
  | listed file inputs =>
      rw [Result.report, hformat]
      exact hsucceeded _
  | made outcome =>
      rw [Result.report, hformat]
      exact hsucceeded _
  | failure message =>
      refine ⟨rfl, rfl, ?_⟩
      rw [Result.report, errors_failed settings events hquiet, hformat]
      rfl

variable {σ : Type} [FileTree (StateM σ)] {arguments : List String} {task : Task}

/-- **JSON loses nothing.** A run that talks in JSON writes one document and a line break, to the
error channel if its task has failed and else to its output, and nothing more but the log. Read
back, the document holds the inputs of a component in their order, each with its name, its kind and
its default; the path of a story and what has become of it; or the message of the failure. -/
theorem run_json (hread : read arguments = .ok (settings, task)) (hformat : settings.format = .json)
    (hquiet : settings.quiet = false) (store : σ) :
    let report := ((run arguments : StateM σ Report) store).1
    let result := ((task.result : StateM σ Result) store).1
    ∃ document, Value.parse document = .ok result.value ∧
      match result with
      | .failure _ => report.code = 1 ∧ report.output = "" ∧ report.errors = document ++ "\n"
      | _ => report.code = 0 ∧ report.output = document ++ "\n" ∧ report.errors = "" := by
  obtain ⟨events, hrun⟩ := reports_run hread store
  dsimp only
  rw [hrun]
  exact ⟨_, parse_document _, report_json hformat hquiet events _⟩

/-- A name with a quote in it, and an input without a default. -/
theorem run_json_panel :
    let arguments := ["inputs", "panel.ts", "--output", "json"]
    let store := Memory.ofFiles [(⟨"panel.ts"⟩,
      "class Panel \x7b\n  @Input('a\"b') size = 2;\n  @Input() when: Date;\n\x7d\n")]
    read arguments = .ok (⟨.json, false, false⟩, .inputs ⟨"panel.ts"⟩) ∧
    ∃ document,
      Value.parse document = .ok (.array
        [.object [("name", .string "a\"b"), ("type", .string "number"),
          ("defaultValue", .string "2")],
         .object [("name", .string "when"), ("type", .string "text"), ("defaultValue", .null)]]) ∧
      ((run arguments : StateM Memory Report) store).1.output = document ++ "\n" := by
  intro arguments store
  have hread : read arguments = .ok (⟨.json, false, false⟩, .inputs ⟨"panel.ts"⟩) := by rfl
  have hresult : (((Task.inputs ⟨"panel.ts"⟩).result : StateM Memory Result) store).1 =
      .listed ⟨"panel.ts"⟩ [⟨"a\"b", .number, some "2"⟩, ⟨"when", .text, none⟩] := by
    decide +kernel
  obtain ⟨document, hparse, hreport⟩ := run_json hread rfl rfl store
  rw [hresult] at hparse hreport
  exact ⟨hread, document, hparse, hreport.2.1⟩

end StoryKnobs.Command

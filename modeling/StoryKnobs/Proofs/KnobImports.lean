import StoryKnobs.Proofs.StoryLines

/-!
# Imports and calls

The entry of each input calls the function of its knob. The import on the first line of a story
names the functions that are called, and no others.
-/

namespace StoryKnobs.Story

variable {props others : List Input} {prop : Input} {helper : String} {knob : Knob}

/-- The line of an input called `name` calls the function `helper`, which stands between the key and
the arguments. What is called inside the arguments is up to the first value of the input. -/
def Calls (name line helper : String) : Prop :=
  '(' ∉ helper.toList ∧
    ∃ arguments, line = "    " ++ name ++ ": " ++ helper ++ "(" ++ arguments ++ "),"

/-- The name of an input may hold anything, but the function is what stands behind the name up to the
first parenthesis. -/
theorem calls_entry_iff : Calls prop.name (entry prop) helper ↔ helper = prop.knob.name := by
  have hknob : '(' ∉ prop.knob.name.toList := by
    cases prop.knob <;> decide
  have hentry : entry prop = "    " ++ prop.name ++ ": " ++ prop.knob.name ++ "(" ++
      ("'" ++ prop.name ++ "', " ++ options prop.knob ++ defaultText prop) ++ ")," := by
    calc
      entry prop = "    " ++ prop.name ++ ": " ++ prop.knob.name ++ ("(" ++ "'") ++ prop.name ++
          "', " ++ options prop.knob ++ defaultText prop ++ ")," := rfl
      _ = _ := by simp only [String.append_assoc]
  constructor
  · rintro ⟨hhelper, arguments, hline⟩
    rw [hentry] at hline
    simp only [String.append_assoc, String.append_right_inj] at hline
    have hchars := congrArg String.toList hline
    simp only [String.toList_append] at hchars
    exact String.toList_inj.mp (Text.append_cons_inj hhelper hknob hchars.symm).1
  · rintro rfl
    exact ⟨hknob, _, hentry⟩

theorem mem_knobsOf_iff : knob ∈ knobsOf props ↔ ∃ prop ∈ props, prop.knob = knob := by
  constructor
  · intro hknob
    obtain ⟨prop, hprop, hsame⟩ := List.any_eq_true.mp (List.mem_filter.mp hknob).2
    exact ⟨prop, hprop, eq_of_beq hsame⟩
  · rintro ⟨prop, hprop, rfl⟩
    exact knob_mem_knobsOf hprop

def helpers (props : List Input) : List String := (knobsOf props).map Knob.name

theorem helpers_sublist (props : List Input) :
    (helpers props).Sublist ["text", "number", "boolean", "select"] :=
  List.filter_sublist.map Knob.name

theorem mem_helpers_iff :
    helper ∈ helpers props ↔ ∃ prop ∈ props, Calls prop.name (entry prop) helper := by
  simp only [helpers, List.mem_map, mem_knobsOf_iff, calls_entry_iff]
  constructor
  · rintro ⟨knob, ⟨prop, hprop, rfl⟩, rfl⟩
    exact ⟨prop, hprop, rfl⟩
  · rintro ⟨prop, hprop, rfl⟩
    exact ⟨prop.knob, ⟨prop, hprop, rfl⟩, rfl⟩

theorem knobImportLines_helpers (props : List Input) : knobImportLines props =
    if props = [] then [] else [importLine (", ".intercalate (helpers props)) knobsPackage] := by
  rw [knobImportLines]
  split
  next hnil => rw [if_pos (knobsOf_eq_nil_iff.mp hnil)]
  next hne =>
    rw [if_neg (mt knobsOf_eq_nil_iff.mpr hne)]
    rfl

/-- The knobs in use do not depend on the order of the inputs and on how often each is there. -/
theorem knobsOf_congr (hmem : ∀ prop, prop ∈ props ↔ prop ∈ others) :
    knobsOf props = knobsOf others := by
  refine List.filter_congr fun knob _ => ?_
  rw [Bool.eq_iff_iff, List.any_eq_true, List.any_eq_true]
  simp only [hmem]

/-- **The import names what the entries call.** The functions on the first line of a story are those
that the entries of its inputs call, each one once and in a fixed order. The line is missing just if
there are no inputs, and it does not depend on their order and on how often each is there. -/
theorem imports_eq_calls (story : Story) :
    ∃ imported : List String,
      imported.Sublist ["text", "number", "boolean", "select"] ∧
      (∀ helper, helper ∈ imported ↔
        ∃ prop ∈ story.props, Calls prop.name (entry prop) helper) ∧
      story.text = Text.ofLines
        ((if story.props = [] then [] else
            [importLine (", ".intercalate imported) knobsPackage]) ++
          (story.headLines ++ (story.props.map entry ++ tailLines))) ∧
      ∀ others, (∀ prop, prop ∈ others ↔ prop ∈ story.props) →
        knobImport others = knobImport story.props := by
  refine ⟨helpers story.props, helpers_sublist _, fun _ => mem_helpers_iff, ?_, ?_⟩
  · rw [text_eq, lines, knobImportLines_helpers]
  · intro others hmem
    rw [knobImport, knobImport, knobsOf_congr hmem]

end StoryKnobs.Story

import Mathlib
import StoryKnobs.Schema

/-!
# Drafts of schemas

A draft becomes a schema just if none of its fields is missing. The schema then has the fields of the
draft, and otherwise the first field that is missing is told.
-/

namespace StoryKnobs.Schema

variable {schema : Schema} {draft : Draft} {field : Field}

theorem Field.mem_all (field : Field) : field ∈ all := by
  cases field <;> decide

theorem Field.key_injective : Function.Injective key := by
  intro field other hkey
  cases field <;> cases other <;> first | rfl | exact absurd hkey (by decide)

namespace Draft

def ofSchema (schema : Schema) : Draft := fun field => some (schema.get field)

/-- The first field, in the order in which schemas declare them, that is missing. -/
def missing? (draft : Draft) : Option Field := Field.all.find? fun field => (draft field).isNone

theorem missing?_eq_none_iff : draft.missing? = none ↔ ∀ field, (draft field).isSome := by
  simp [missing?, Field.mem_all, Option.isSome_iff_ne_none]

theorem exists_eq_ofSchema (hmissing : draft.missing? = none) :
    ∃ schema, draft = ofSchema schema := by
  have hsome := missing?_eq_none_iff.mp hmissing
  choose value hvalue using fun field => Option.isSome_iff_exists.mp (hsome field)
  refine ⟨⟨value .libPath, value .moduleFileName, value .moduleClassName, value .componentName,
    value .componentPath, value .componentFileName⟩, funext fun field => ?_⟩
  rw [hvalue]
  cases field <;> rfl

theorem complete_ofSchema (schema : Schema) : (ofSchema schema).complete = .ok schema := rfl

theorem complete_of_missing? (hmissing : draft.missing? = some field) :
    draft.complete = .error field := by
  revert hmissing
  simp only [missing?, Field.all, List.find?_cons, complete, require]
  cases draft .libPath <;> cases draft .moduleFileName <;> cases draft .moduleClassName <;>
    cases draft .componentName <;> cases draft .componentPath <;>
    cases draft .componentFileName <;> rintro ⟨⟩ <;> rfl

theorem complete_eq_ok_iff : draft.complete = .ok schema ↔ draft = ofSchema schema := by
  constructor
  · intro hcomplete
    cases hmissing : draft.missing? with
    | none =>
        obtain ⟨other, rfl⟩ := exists_eq_ofSchema hmissing
        rw [complete_ofSchema] at hcomplete
        rw [Except.ok.inj hcomplete]
    | some field =>
        rw [complete_of_missing? hmissing] at hcomplete
        cases hcomplete
  · rintro rfl
    exact complete_ofSchema schema

theorem complete_eq_error_iff : draft.complete = .error field ↔ draft.missing? = some field := by
  refine ⟨fun hcomplete => ?_, complete_of_missing?⟩
  cases hmissing : draft.missing? with
  | none =>
      obtain ⟨schema, rfl⟩ := exists_eq_ofSchema hmissing
      cases hcomplete
  | some other =>
      rw [complete_of_missing? hmissing] at hcomplete
      rw [Except.error.inj hcomplete]

end Draft

end StoryKnobs.Schema

import StoryKnobs.FileTree.Memory
import StoryKnobs.Proofs.Merging

/-!
# Schemas from files alone

A schema file may leave fields to options. Without options it gives a schema just where its text is
read as one, and then the same one: a field that is missing or `null` is found out later, but it is
found out.
-/

namespace StoryKnobs

open Json.Reader (IsFound present)

namespace Schema

variable {schema : Schema} {text : String}

theorem Draft.ofFound_present (found : List (String × String)) :
    Draft.ofFound (present found) = fun field => found.lookup field.key := by
  funext field
  rw [Draft.ofFound]
  induction found with
  | nil => rfl
  | cons entry found ih =>
      obtain ⟨name, value⟩ := entry
      rw [present, List.map_cons, List.lookup_cons, List.lookup_cons]
      cases field.key == name with
      | true => rfl
      | false => exact ih

/-- If a schema comes of the fields that are found, none of them is `null`. -/
theorem Draft.exists_present {found : List (String × Option String)} (hfound : IsFound keys found)
    (hdraft : Draft.ofFound found = Draft.ofSchema schema) : ∃ plain, found = present plain := by
  have hrange : found ∈ Set.range present := by
    refine (Set.range_list_map _).symm ▸ ?_
    rintro ⟨name, value⟩ hmem
    obtain ⟨field, rfl⟩ := mem_keys_iff.mp (hfound.known _ hmem)
    have hvalue : Draft.ofFound found field = some (schema.get field) := congrFun hdraft field
    rw [Draft.ofFound, hfound.lookup_eq hmem, Option.join_some] at hvalue
    exact ⟨(field.key, schema.get field), by rw [hvalue]⟩
  obtain ⟨plain, hplain⟩ := hrange
  exact ⟨plain, hplain.symm⟩

theorem Draft.parse_eq_ok_iff :
    Draft.parse text = .ok (Draft.ofSchema schema) ↔ Schema.parse text = .ok schema := by
  have hfields : (shape Draft.title).fields = (shape Schema.title).fields := rfl
  refine Json.Reader.Matches.run_eq_ok_iff (Json.Reader.matches_record hfields keys_nodup
    (Json.Reader.matches_orNull_text textName) ?_ ?_) text
  · intro found
    rw [Draft.ofFound_present, ofFound_eq_ok_iff, Except.ok.injEq]
  · intro found hfound hdraft
    exact Draft.exists_present hfound (Except.ok.inj hdraft)

end Schema

namespace Command

variable {σ : Type} [FileTree (StateM σ)] {path : Path} {store : σ} {text : String}

/-- **Schemas from files alone.** A schema file without options gives a schema if and only if the
text of the file is read as that schema. -/
theorem resolveIn_file_eq_ok_iff (hread : readIn store path = .ok text) (schema : Schema) :
    resolveIn store (some path) .empty = .ok schema ↔ Schema.parse text = .ok schema := by
  rw [← Schema.Draft.parse_eq_ok_iff, resolveIn_some]
  simp only [hread]
  cases Schema.Draft.parse text with
  | error error => simp
  | ok draft =>
      simp only [mergeDrafts_eq_ok_iff, Except.ok.injEq]
      exact Iff.rfl

theorem resolveIn_file_of_array :
    let text := "[\"lib\", \"ui.module.ts\", \"UiModule\", \"Tab\", \"\", \"tab\"]"
    let store := Memory.empty.insert ⟨"schema.json"⟩ text
    readIn store ⟨"schema.json"⟩ = .ok text ∧
      resolveIn store (some ⟨"schema.json"⟩) .empty =
        .ok ⟨"lib", "ui.module.ts", "UiModule", "Tab", "", "tab"⟩ :=
  ⟨rfl, (resolveIn_file_eq_ok_iff rfl _).mpr rfl⟩

end Command

end StoryKnobs

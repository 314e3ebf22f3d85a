import StoryKnobs.Proofs.Drafts
import StoryKnobs.Proofs.Records

/-!
# Schemas as JSON

A schema is read back from the text that holds it. The text may be an object with the fields of the
schema in any order, whatever other members it has and however it is written, or an array with the
fields in order.
-/

namespace StoryKnobs.Schema

open Json (IsValue WritesArray WritesObject WritesText knownNames)
open Json.Reader (IsGap ReadsItem)

variable {schema : Schema} {γ : Type} {part : Field → γ} {extra members : List (String × γ)}

def keys : List String := Field.all.map Field.key

/-- The members are those with the parts of all fields under their keys, and extra ones with other
names, in any order. -/
structure HasFields (part : Field → γ) (extra members : List (String × γ)) : Prop where
  perm : members.Perm (Field.all.map (fun field => (field.key, part field)) ++ extra)
  other : ∀ member ∈ extra, member.1 ∉ keys

theorem key_mem_keys (field : Field) : field.key ∈ keys := List.mem_map_of_mem field.mem_all

theorem keys_nodup : keys.Nodup := by decide

theorem mem_keys_iff {name : String} : name ∈ keys ↔ ∃ field : Field, field.key = name := by
  simp [keys, Field.mem_all]

theorem exists_key_eq {name : String} (hname : keys.contains name = true) :
    ∃ field : Field, field.key = name :=
  mem_keys_iff.mp (List.contains_iff_mem.mp hname)

theorem notMem_keys {name : String} (hname : keys.contains name = false) : name ∉ keys := by
  rwa [← List.contains_iff_mem, Bool.not_eq_true]

theorem HasFields.knownNames_perm (hfields : HasFields part extra members) :
    (knownNames keys members).Perm keys := by
  have hown : (Field.all.map fun field => (field.key, part field)).map Prod.fst = keys :=
    List.map_map
  have hextra : (extra.map Prod.fst).filter keys.contains = [] := by
    refine List.filter_eq_nil_iff.mpr fun name hname => ?_
    obtain ⟨member, hmember, rfl⟩ := List.mem_map.mp hname
    rw [List.contains_iff_mem]
    exact hfields.other member hmember
  have hkeys : keys.filter keys.contains = keys :=
    List.filter_eq_self.mpr fun name hname => List.contains_iff_mem.mpr hname
  have hperm : (knownNames keys members).Perm (knownNames keys _) :=
    Json.knownNames_perm hfields.perm
  rwa [knownNames, knownNames, List.map_append, List.filter_append, hown, hkeys, hextra,
    List.append_nil] at hperm

theorem HasFields.eq_of_mem (hfields : HasFields part extra members) {field : Field} {value : γ}
    (hmem : (field.key, value) ∈ members) : value = part field := by
  rcases List.mem_append.mp (hfields.perm.mem_iff.mp hmem) with hown | hextra
  · obtain ⟨other, -, hsame⟩ := List.mem_map.mp hown
    obtain ⟨hkey, rfl⟩ := Prod.mk.inj hsame
    rw [Field.key_injective hkey]
  · exact absurd (key_mem_keys field) (hfields.other _ hextra)

theorem HasFields.mem_extra (hfields : HasFields part extra members) {member : String × γ}
    (hmem : member ∈ members) (hother : member.1 ∉ keys) : member ∈ extra := by
  rcases List.mem_append.mp (hfields.perm.mem_iff.mp hmem) with hown | hextra
  · obtain ⟨field, -, rfl⟩ := List.mem_map.mp hown
    exact absurd (key_mem_keys field) hother
  · exact hextra

def textAt (schema : Schema) (name : String) : String :=
  ((Field.all.find? (·.key == name)).map schema.get).getD ""

theorem textAt_key (schema : Schema) (field : Field) :
    schema.textAt field.key = schema.get field := by
  cases field <;> rfl

theorem ofFound_eq_ok_iff {found : List (String × String)} :
    ofFound found = .ok schema ↔
      (fun field : Field => found.lookup field.key) = Draft.ofSchema schema := by
  rw [← Draft.complete_eq_ok_iff, ofFound]
  cases Draft.complete fun field => found.lookup field.key <;> simp

theorem ofFound_of_perm {names : List String} (hnames : names.Perm keys) :
    ofFound (names.map fun name => (name, schema.textAt name)) = .ok schema := by
  refine ofFound_eq_ok_iff.mpr (funext fun field => ?_)
  have hmem : field.key ∈ names := hnames.mem_iff.mpr (key_mem_keys field)
  rw [List.lookup_graph _ hmem, textAt_key, Draft.ofSchema]

theorem ofFound_zip (schema : Schema) :
    ofFound (keys.zip (Field.all.map schema.get)) = .ok schema :=
  ofFound_eq_ok_iff.mpr (funext fun field => by cases field <;> rfl)

/-! ### Reading -/

theorem readsItem_of_object {texts : Field → List Char} {extra members : List (String × List Char)}
    {chars : List Char} (hfields : HasFields texts extra members)
    (htexts : ∀ field, WritesText (schema.get field) (texts field))
    (hextra : ∀ member ∈ extra, IsValue member.2) (hobject : WritesObject members chars) :
    ReadsItem reader chars schema := by
  have hnames := hfields.knownNames_perm
  refine Json.Reader.readsItem_record_of_object hobject (hnames.nodup_iff.mpr keys_nodup) ?_ ?_
    (ofFound_of_perm hnames)
  · rintro ⟨name, value⟩ hmem hname
    obtain ⟨field, rfl⟩ := exists_key_eq hname
    rw [hfields.eq_of_mem hmem, textAt_key]
    exact Json.Reader.readsItem_text textName (htexts field)
  · rintro member hmem hname
    exact hextra member (hfields.mem_extra hmem (notMem_keys hname))

theorem readsItem_of_array {texts : Field → List Char} {chars : List Char}
    (htexts : ∀ field, WritesText (schema.get field) (texts field))
    (harray : WritesArray (Field.all.map texts) chars) : ReadsItem reader chars schema := by
  have hitems : List.Forall₂ (ReadsItem (Json.Reader.text textName)) (Field.all.map texts)
      (Field.all.map schema.get) := by
    rw [List.forall₂_map_left_iff, List.forall₂_map_right_iff, List.forall₂_same]
    exact fun field _ => Json.Reader.readsItem_text textName (htexts field)
  exact Json.Reader.readsItem_record_of_array harray hitems rfl (ofFound_zip schema)

theorem ofValue_object {extra members : List (String × Json.Value)}
    (hfields : HasFields (fun field => .string (schema.get field)) extra members) :
    ofValue (.object members) = .ok schema := by
  refine Json.Value.asRecord_object ?_ (ofFound_of_perm hfields.knownNames_perm)
  rintro ⟨name, value⟩ hmem hname
  obtain ⟨field, rfl⟩ := exists_key_eq hname
  rw [hfields.eq_of_mem hmem, textAt_key]
  rfl

theorem ofValue_array (schema : Schema) :
    ofValue (.array (Field.all.map fun field => .string (schema.get field))) = .ok schema := by
  have hparts : List.Forall₂ (fun value found => Json.Value.asText textName value = .ok found)
      (Field.all.map fun field => .string (schema.get field)) (Field.all.map schema.get) := by
    rw [List.forall₂_map_left_iff, List.forall₂_map_right_iff, List.forall₂_same]
    exact fun _ _ => rfl
  exact Json.Value.asRecord_array hparts rfl (ofFound_zip schema)

theorem hasFields_self (part : Field → γ) :
    HasFields part [] (Field.all.map fun field => (field.key, part field)) where
  perm := by rw [List.append_nil]
  other := nofun

/-- A schema is read back from its own text, in whatever style that is written. -/
theorem parse_write (schema : Schema) (style : Json.Value.Style) :
    parse (String.ofList (style.write 0 schema.toValue)) = .ok schema := by
  have htexts (field : Field) :
      WritesText (schema.get field) (style.write 1 (.string (schema.get field))) := by
    rw [style.write_string]
    exact ⟨_, Json.Reader.spells_escape _, Json.Reader.toList_quote _⟩
  have hobject := style.writesObject 0
    (Field.all.map fun field => (field.key, .string (schema.get field)))
  rw [List.map_map] at hobject
  have hreads := readsItem_of_object (hasFields_self _) htexts nofun hobject
  have hparse := hreads.run_eq Json.Reader.isGap_nil Json.Reader.isGap_nil
  rwa [List.nil_append, List.append_nil] at hparse

/-- **Schemas read back.** The text of a schema, in one piece or over several lines, is read as that
schema. So is any object that has the fields of the schema in any order, with any other members
among them, and any array that has the texts of the fields in order, whatever blanks and escapes
they are written with. The same holds of objects and arrays that have been read before. -/
theorem parse_of_any_spelling (schema : Schema) :
    parse schema.toValue.compact = .ok schema ∧ parse schema.toValue.pretty = .ok schema ∧
    (∀ texts : Field → List Char, (∀ field, WritesText (schema.get field) (texts field)) →
      ∀ before after, IsGap before → IsGap after →
      (∀ extra members chars, HasFields texts extra members →
        (∀ member ∈ extra, IsValue member.2) → WritesObject members chars →
        parse (String.ofList (before ++ chars ++ after)) = .ok schema) ∧
      ∀ chars, WritesArray (Field.all.map texts) chars →
        parse (String.ofList (before ++ chars ++ after)) = .ok schema) ∧
    (∀ extra members, HasFields (fun field => .string (schema.get field)) extra members →
      ofValue (.object members) = .ok schema) ∧
    ofValue (.array (Field.all.map fun field => .string (schema.get field))) = .ok schema := by
  refine ⟨?_, ?_, fun texts htexts before after hbefore hafter => ⟨?_, ?_⟩, ?_, ofValue_array schema⟩
  · have hcompact := schema.parse_write .compact
    rwa [Json.Value.Style.write_compact, String.ofList_toList] at hcompact
  · have hpretty := schema.parse_write .pretty
    rwa [Json.Value.Style.write_pretty, String.ofList_toList] at hpretty
  · intro extra members chars hfields hextra hobject
    exact (readsItem_of_object hfields htexts hextra hobject).run_eq hbefore hafter
  · intro chars harray
    exact (readsItem_of_array htexts harray).run_eq hbefore hafter
  · exact fun extra members hfields => ofValue_object hfields

end StoryKnobs.Schema

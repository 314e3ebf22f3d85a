import StoryKnobs.Command.Run
import StoryKnobs.Proofs.NullableFields
import StoryKnobs.Proofs.SchemaTexts

/-!
# Merging options with a schema file

A schema is gathered from the fields given as options and those in a schema file. A file that cannot
be read ends this at once. Otherwise each field is looked for by itself, first among the options and
then in the file, and the first field in neither of them is told.
-/

namespace StoryKnobs

open Json (IsValue WritesArray WritesNullable WritesObject knownNames)
open Json.Reader (IsGap ReadsItem)

namespace Schema

variable {draft other : Draft} {schema : Schema} {field : Field}

/-! ### What a schema file says -/

namespace Draft

/-- The members are those of a schema file with the fields of `draft`: each key stands there at most
once, with the text of its field or `null`, and it does stand there if the field has a text. The
other members may be any. -/
structure HasMembers (draft : Draft) (members : List (String × List Char)) : Prop where
  once : (knownNames keys members).Nodup
  written : ∀ field chars, (field.key, chars) ∈ members → WritesNullable (draft field) chars
  given : ∀ field, (draft field).isSome → field.key ∈ members.map Prod.fst
  other : ∀ member ∈ members, member.1 ∉ keys → IsValue member.2

/-- `chars` is an object with the fields of `draft` under their keys, or an array with them in the
order in which schemas declare them. -/
inductive Writes (draft : Draft) (chars : List Char) : Prop where
  | object {members : List (String × List Char)} (hmembers : draft.HasMembers members)
      (hobject : WritesObject members chars) : Writes draft chars
  | array {texts : Field → List Char} (htexts : ∀ field, WritesNullable (draft field) (texts field))
      (harray : WritesArray (Field.all.map texts) chars) : Writes draft chars

def textAt? (draft : Draft) (name : String) : Option String :=
  (Field.all.find? (·.key == name)).bind draft

theorem textAt?_key (draft : Draft) (field : Field) : draft.textAt? field.key = draft field := by
  cases field <;> rfl

theorem ofFound_knownNames {names : List String}
    (hgiven : ∀ field, (draft field).isSome → field.key ∈ names) :
    ofFound (names.map fun name => (name, draft.textAt? name)) = draft := by
  funext field
  rw [ofFound]
  by_cases hmem : field.key ∈ names
  · rw [List.lookup_graph _ hmem, textAt?_key]
    rfl
  · have hlookup : (names.map fun name => (name, draft.textAt? name)).lookup field.key = none := by
      rw [List.lookup_eq_none_iff]
      rintro _ hentry
      obtain ⟨name, hname, rfl⟩ := List.mem_map.mp hentry
      exact bne_iff_ne.mpr fun hkey => hmem (hkey ▸ hname)
    rw [hlookup]
    exact (Option.not_isSome_iff_eq_none.mp fun hsome => hmem (hgiven field hsome)).symm

theorem readsItem_of_writes {chars : List Char} (hwrites : draft.Writes chars) :
    ReadsItem reader chars draft := by
  cases hwrites with
  | @object members hmembers hobject =>
      have hnames : ofFound ((knownNames keys members).map fun name => (name, draft.textAt? name)) =
          draft := by
        refine ofFound_knownNames fun field hsome => List.mem_filter.mpr ?_
        exact ⟨hmembers.given field hsome, List.contains_iff_mem.mpr (key_mem_keys field)⟩
      refine Json.Reader.readsItem_record_of_object hobject hmembers.once ?_ ?_ (congrArg _ hnames)
      · rintro ⟨name, value⟩ hmem hname
        obtain ⟨field, rfl⟩ := exists_key_eq hname
        rw [textAt?_key]
        exact Json.Reader.readsItem_orNull textName (hmembers.written field value hmem)
      · exact fun member hmem hname => hmembers.other member hmem (notMem_keys hname)
  | @array texts htexts harray =>
      have hitems : List.Forall₂ (ReadsItem (Json.Reader.orNull (Json.Reader.text textName)))
          (Field.all.map texts) (Field.all.map draft) := by
        rw [List.forall₂_map_left_iff, List.forall₂_map_right_iff, List.forall₂_same]
        exact fun field _ => Json.Reader.readsItem_orNull textName (htexts field)
      have hzip : ofFound (keys.zip (Field.all.map draft)) = draft :=
        funext fun field => by cases field <;> rfl
      exact Json.Reader.readsItem_record_of_array harray hitems rfl (congrArg _ hzip)

end Draft

end Schema

namespace Command

open Schema (Draft Field)

variable {fields draft repeated : Draft} {schema : Schema} {field : Field}

/-! ### One draft over another -/

theorem mergeDrafts_eq_ok_iff :
    mergeDrafts fields draft = .ok schema ↔ fields.orElse draft = Draft.ofSchema schema := by
  rw [← Schema.Draft.complete_eq_ok_iff, mergeDrafts]
  cases (fields.orElse draft).complete <;> simp

theorem mergeDrafts_eq_missing_iff :
    mergeDrafts fields draft = .error (.missing field) ↔
      (fields.orElse draft).missing? = some field := by
  rw [← Schema.Draft.complete_eq_error_iff, mergeDrafts]
  cases (fields.orElse draft).complete <;> simp

theorem isSome_orElse (fields draft : Draft) (field : Field) :
    (fields.orElse draft field).isSome ↔ (fields field).isSome ∨ (draft field).isSome := by
  rw [Schema.Draft.orElse, Option.isSome_or, Bool.or_eq_true]

theorem exists_mergeDrafts_iff : (∃ schema, mergeDrafts fields draft = .ok schema) ↔
    ∀ field, (fields field).isSome ∨ (draft field).isSome := by
  simp only [← isSome_orElse, ← Schema.Draft.missing?_eq_none_iff]
  constructor
  · rintro ⟨schema, hschema⟩
    rw [mergeDrafts_eq_ok_iff.mp hschema]
    exact Schema.Draft.missing?_eq_none_iff.mpr fun _ => rfl
  · intro hmissing
    obtain ⟨schema, hschema⟩ := Schema.Draft.exists_eq_ofSchema hmissing
    exact ⟨schema, mergeDrafts_eq_ok_iff.mpr hschema⟩

theorem get_of_mergeDrafts (hmerge : mergeDrafts fields draft = .ok schema) (field : Field) :
    some (schema.get field) = (fields field).or (draft field) :=
  (congrFun (mergeDrafts_eq_ok_iff.mp hmerge) field).symm

theorem missing?_orElse (fields draft : Draft) : (fields.orElse draft).missing? =
    Field.all.find? fun field => (fields field).isNone && (draft field).isNone := by
  simp only [Schema.Draft.missing?, Schema.Draft.orElse, Option.isNone_or]

/-- Options that repeat what stands in the file add nothing. -/
theorem orElse_of_repeated (hrepeated : ∀ field,
      repeated field = fields field ∨ fields field = none ∧ repeated field = draft field) :
    repeated.orElse draft = fields.orElse draft := by
  funext field
  rw [Schema.Draft.orElse, Schema.Draft.orElse]
  obtain hsame | ⟨hnone, hfile⟩ := hrepeated field
  · rw [hsame]
  · rw [hnone, hfile, Option.or_self, Option.none_or]

/-- Nothing in a file counts where the options give all fields. -/
theorem orElse_of_isSome (hgiven : ∀ field, (fields field).isSome) (draft : Draft) :
    fields.orElse draft = fields :=
  funext fun field => Option.or_of_isSome (hgiven field)

/-- The option that messages name for a field is the one that gives it. -/
theorem long?_flag (field : Field) : Level.generate.long? field.flag = some (.field field) := by
  cases field <;> decide

/-! ### Gathering a schema -/

section

variable {σ : Type} [FileTree (StateM σ)] {path : Path} {schemaFile : Option Path} {store : σ}
  {text : String}

def readIn (store : σ) (path : Path) : Except FileError String :=
  ((FileTree.read path : StateM σ (Except FileError String)) store).1

def resolveIn (store : σ) (schemaFile : Option Path) (fields : Draft) : Except SchemaError Schema :=
  ((resolve schemaFile fields : StateM σ (Except SchemaError Schema)) store).1

/-- `draft` has the fields of the schema file, which can be read. Without a file it is empty. -/
def Supplies (store : σ) : Option Path → Draft → Prop
  | none, draft => draft = .empty
  | some path, draft => ∃ text, readIn store path = .ok text ∧ Draft.parse text = .ok draft

theorem resolveIn_some (store : σ) (path : Path) (fields : Draft) :
    resolveIn store (some path) fields =
      match readIn store path with
      | .error error => .error (.unreadable path error)
      | .ok text =>
        match Draft.parse text with
        | .error error => .error (.malformed path error)
        | .ok draft => mergeDrafts fields draft := by
  simp only [resolveIn, resolve, loadDraft, readIn, bind, StateT.bind, pure, StateT.pure]
  rcases (FileTree.read path : StateM σ (Except FileError String)) store with ⟨error | text, _⟩
  · rfl
  · dsimp only
    cases Draft.parse text <;> rfl

theorem resolveIn_of_supplies (hsupplies : Supplies store schemaFile draft) :
    resolveIn store schemaFile fields = mergeDrafts fields draft := by
  cases schemaFile with
  | none =>
      rw [show draft = .empty from hsupplies]
      rfl
  | some path =>
      obtain ⟨text, hread, hparse⟩ := hsupplies
      simp only [resolveIn_some, hread, hparse]

/-- **Options over a schema file.** A schema file that is named has to be read and understood,
whatever the options give. Then a schema is gathered just if each field is given by an option or in
the file; each field has the text of its own option, and if there is none its own text in the file.
Otherwise the first field that neither gives is told, by its key and its option. So options that
repeat what stands in the file change nothing, and neither does the file where the options give all
fields. -/
theorem resolve_field_by_field (store : σ) (schemaFile : Option Path) (fields : Draft) :
    (∀ path ∈ schemaFile, ∀ error, readIn store path = .error error →
      resolveIn store schemaFile fields = .error (.unreadable path error)) ∧
    (∀ path ∈ schemaFile, ∀ text error, readIn store path = .ok text →
      Draft.parse text = .error error →
        resolveIn store schemaFile fields = .error (.malformed path error)) ∧
    (∀ path ∈ schemaFile, ∀ before chars after draft,
      readIn store path = .ok (String.ofList (before ++ chars ++ after)) →
        IsGap before → IsGap after → Draft.Writes draft chars →
          Supplies store schemaFile draft) ∧
    (∀ draft, Supplies store schemaFile draft →
      ((∃ schema, resolveIn store schemaFile fields = .ok schema) ↔
        ∀ field, (fields field).isSome ∨ (draft field).isSome) ∧
      (∀ schema, resolveIn store schemaFile fields = .ok schema →
        ∀ field, some (schema.get field) = (fields field).or (draft field)) ∧
      (∀ field, resolveIn store schemaFile fields = .error (.missing field) ↔
        (Field.all.find? fun field => (fields field).isNone && (draft field).isNone) = some field) ∧
      (∀ repeated : Draft, (∀ field,
          repeated field = fields field ∨ fields field = none ∧ repeated field = draft field) →
        resolveIn store schemaFile repeated = resolveIn store schemaFile fields) ∧
      ((∀ field, (fields field).isSome) → ∀ (otherStore : σ) other otherDraft,
        Supplies otherStore other otherDraft →
          resolveIn otherStore other fields = resolveIn store schemaFile fields)) ∧
    ∀ field, Level.generate.long? field.flag = some (.field field) ∧
      (SchemaError.missing field).message = "missing required schema field `" ++ field.key ++
        "` (pass --" ++ field.flag ++ " or set it in --schema)" := by
  refine ⟨?_, ?_, ?_, ?_, fun field => ⟨long?_flag field, rfl⟩⟩
  · rintro path ⟨⟩ error hread
    simp only [resolveIn_some, hread]
  · rintro path ⟨⟩ text error hread hparse
    simp only [resolveIn_some, hread, hparse]
  · rintro path ⟨⟩ before chars after draft hread hbefore hafter hwrites
    exact ⟨_, hread, (Schema.Draft.readsItem_of_writes hwrites).run_eq hbefore hafter⟩
  · intro draft hsupplies
    simp only [resolveIn_of_supplies hsupplies]
    refine ⟨exists_mergeDrafts_iff, fun schema => get_of_mergeDrafts, fun field => ?_, ?_, ?_⟩
    · rw [mergeDrafts_eq_missing_iff, missing?_orElse]
    · intro repeated hrepeated
      rw [mergeDrafts, orElse_of_repeated hrepeated, mergeDrafts]
    · intro hgiven otherStore other otherDraft hother
      rw [resolveIn_of_supplies hother, mergeDrafts, orElse_of_isSome hgiven, mergeDrafts,
        orElse_of_isSome hgiven]

end

end Command

end StoryKnobs

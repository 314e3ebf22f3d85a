import StoryKnobs.Proofs.Operations

/-!
# The history of a tree in memory

What a tree holds after any operations is told by its history alone: of the files at the start the
last one with a path counts, and of the texts that were to be written later the first one. So a text
that is there stays, and once there is a story, making it again does nothing.
-/

namespace StoryKnobs

/-- The files that a tree has held from the start, and the texts that were to be written to it
since, in this order. -/
structure History where
  initial : List (Path × String)
  writes : List (Path × String)

namespace History

/-- The first text for a path, however the path is spelled. -/
def firstOf (files : List (Path × String)) (path : Path) : Option String :=
  (files.find? fun file => file.1.normal = path.normal).map Prod.snd

def text? (history : History) (path : Path) : Option String :=
  (firstOf history.initial.reverse path).or (firstOf history.writes path)

def record (history : History) (operation : Operation) : History :=
  { history with writes := history.writes ++ (operation.request? history.text?).toList }

def ofOperations (files : List (Path × String)) (operations : List Operation) : History :=
  operations.foldl record ⟨files, []⟩

variable {history : History} {operation : Operation} {memory : Memory}

theorem firstOf_append (files others : List (Path × String)) (path : Path) :
    firstOf (files ++ others) path = (firstOf files path).or (firstOf others path) := by
  rw [firstOf, firstOf, firstOf, List.find?_append, Option.map_or]

theorem firstOf_singleton (path other : Path) (text : String) :
    firstOf [(path, text)] other = if path.normal = other.normal then some text else none := by
  by_cases heq : path.normal = other.normal <;> simp [firstOf, heq]

/-- Of the files at the start, the last one with a path counts. -/
theorem get?_ofFiles (files : List (Path × String)) (path : Path) :
    (Memory.ofFiles files).get? path = firstOf files.reverse path := by
  have hall : ∀ memory : Memory,
      (files.foldl (fun memory file => memory.insert file.1 file.2) memory).get? path =
        (firstOf files.reverse path).or (memory.get? path) := by
    induction files with
    | nil => exact fun memory => rfl
    | cons file files ih =>
        intro memory
        rw [List.foldl_cons, ih, List.reverse_cons, firstOf_append, firstOf_singleton,
          Memory.get?_insert, Option.or_assoc]
        by_cases heq : file.1.normal = path.normal
        · rw [if_pos heq, if_pos heq.symm, Option.some_or]
        · rw [if_neg heq, if_neg fun hother => heq hother.symm, Option.none_or]
  exact (hall Memory.empty).trans (Option.or_none)

theorem text?_record_of_none (hrequest : operation.request? history.text? = none) (path : Path) :
    (history.record operation).text? path = history.text? path := by
  rw [record, hrequest, Option.toList_none, List.append_nil]

theorem text?_record_of_some {place : Path} {text : String}
    (hrequest : operation.request? history.text? = some (place, text)) (path : Path) :
    (history.record operation).text? path =
      (history.text? path).or (if place.normal = path.normal then some text else none) := by
  rw [text?, text?, record, hrequest, Option.toList_some, firstOf_append, firstOf_singleton,
    Option.or_assoc]

/-- An operation makes the same difference to what a tree holds as to what its history tells. -/
theorem get?_run (hmemory : ∀ path, memory.get? path = history.text? path)
    (operation : Operation) (path : Path) :
    (operation.run memory).2.get? path = (history.record operation).text? path := by
  have hfind : memory.get? = history.text? := funext hmemory
  cases hrequest : operation.request? history.text? with
  | none =>
      have hrun := Operation.run_of_request?_eq_none (hfind ▸ hrequest)
      rw [hrun.1, text?_record_of_none hrequest, hmemory]
  | some request =>
      obtain ⟨place, text⟩ := request
      have hmemoryRequest : operation.request? memory.get? = some (place, text) := hfind ▸ hrequest
      rw [(Operation.run_of_request?_eq_some hmemoryRequest).1, Memory.get?_writeNew,
        text?_record_of_some hrequest, hmemory]

theorem get?_after (files : List (Path × String)) (operations : List Operation) (path : Path) :
    (Operation.after operations (Memory.ofFiles files)).get? path =
      (ofOperations files operations).text? path := by
  have hall : ∀ (memory : Memory) (history : History),
      (∀ path, memory.get? path = history.text? path) →
        (Operation.after operations memory).get? path =
          (operations.foldl record history).text? path := by
    induction operations with
    | nil => exact fun _ _ hmemory => hmemory path
    | cons operation operations ih =>
        exact fun memory history hmemory => ih _ _ (get?_run hmemory operation)
  refine hall _ _ fun path => ?_
  rw [get?_ofFiles, text?, firstOf, firstOf, List.find?_nil, Option.map_none, Option.or_none]

end History

/-! ### Runs -/

namespace Operation

variable {memory : Memory} {path : Path} {text : String}

theorem ordered_run (hordered : memory.Ordered) (operation : Operation) :
    (operation.run memory).2.Ordered := by
  cases hrequest : operation.request? memory.get? with
  | none => rwa [(run_of_request?_eq_none hrequest).1]
  | some request =>
      rw [(run_of_request?_eq_some hrequest).1]
      exact hordered.writeNew request.1 request.2

theorem ordered_after (hordered : memory.Ordered) (operations : List Operation) :
    (after operations memory).Ordered := by
  induction operations generalizing memory with
  | nil => exact hordered
  | cons operation operations ih => exact ih (ordered_run hordered operation)

theorem get?_run_eq_some (hsome : memory.get? path = some text) (operation : Operation) :
    (operation.run memory).2.get? path = some text := by
  cases hrequest : operation.request? memory.get? with
  | none => rwa [(run_of_request?_eq_none hrequest).1]
  | some request =>
      rw [(run_of_request?_eq_some hrequest).1, Memory.get?_writeNew, hsome, Option.some_or]

theorem get?_after_eq_some (hsome : memory.get? path = some text) (operations : List Operation) :
    (after operations memory).get? path = some text := by
  induction operations generalizing memory with
  | nil => exact hsome
  | cons operation operations ih => exact ih (get?_run_eq_some hsome operation)

/-- An operation that tells of a new file has added one path, and any other changes nothing. -/
theorem paths_run (memory : Memory) (hordered : memory.Ordered) (operation : Operation) :
    ((operation.run memory).1.reportsWrite = true ↔
      ∃ path ∉ memory.paths, (operation.run memory).2.paths.Perm (path :: memory.paths)) ∧
    ((operation.run memory).1.reportsWrite = false → (operation.run memory).2 = memory) := by
  have hkept : (operation.run memory).1.reportsWrite = false →
      (operation.run memory).2 = memory := by
    intro hreports
    cases hrequest : operation.request? memory.get? with
    | none => exact (run_of_request?_eq_none hrequest).1
    | some request =>
        have hrun := run_of_request?_eq_some hrequest
        cases hget : memory.get? request.1 with
        | none =>
            rw [hrun.2.mpr hget] at hreports
            cases hreports
        | some old => rw [hrun.1, Memory.writeNew_of_get?_eq_some hget]
  refine ⟨⟨?_, ?_⟩, hkept⟩
  · intro hreports
    cases hrequest : operation.request? memory.get? with
    | none =>
        rw [(run_of_request?_eq_none hrequest).2] at hreports
        cases hreports
    | some request =>
        have hrun := run_of_request?_eq_some hrequest
        have hnone := hrun.2.mp hreports
        refine ⟨request.1.normalize, ?_, ?_⟩
        · rw [hordered.normalize_mem_paths_iff, hnone]
          exact fun hne => hne rfl
        · rw [hrun.1, Memory.writeNew_of_get?_eq_none hnone]
          exact Memory.paths_insert_perm hnone request.2
  · rintro ⟨path, -, hperm⟩
    by_contra hreports
    rw [hkept (by simpa using hreports)] at hperm
    have hlength := hperm.length_eq
    rw [List.length_cons] at hlength
    omega

end Operation

/-! ### Main results -/

/-- **The first writer wins.** What a tree holds at a path is the last text for it among the files
at the start, or else the first text that was to be written to it since. An operation tells of a new
file just when it has added one path, and else changes nothing. The paths are in strict order and
in normal form. -/
theorem History.first_writer_wins (files : List (Path × String)) (operations : List Operation) :
    let memory := Operation.after operations (Memory.ofFiles files)
    let history := History.ofOperations files operations
    (∀ path,
      memory.get? path = history.text? path ∧
      memory.contains path = (history.text? path).isSome ∧
      memory.read path = (match history.text? path with
        | some text => .ok text
        | none => .error (.unknown path.normalize))) ∧
    (∀ operation : Operation,
      ((operation.run memory).1.reportsWrite = true ↔
        ∃ path ∉ memory.paths, (operation.run memory).2.paths.Perm (path :: memory.paths)) ∧
      ((operation.run memory).1.reportsWrite = false → (operation.run memory).2 = memory)) ∧
    memory.paths.Pairwise (fun path other =>
      Path.before path.components other.components = true) ∧
    memory.paths.Nodup ∧
    ∀ path ∈ memory.paths, path.normalize = path ∧
      ∀ component ∈ path.components, component ≠ .current ∧ component ≠ .parent := by
  intro memory history
  have hordered : memory.Ordered :=
    Operation.ordered_after (Memory.ordered_ofFiles files) operations
  have hget : ∀ path, memory.get? path = history.text? path :=
    History.get?_after files operations
  refine ⟨?_, Operation.paths_run memory hordered, hordered.pairwise_paths, hordered.nodup_paths,
    ?_⟩
  · intro path
    rw [Memory.read, Memory.contains_eq_isSome, hget]
    exact ⟨rfl, rfl, rfl⟩
  · intro path hpath
    exact ⟨hordered.normalize_eq hpath, fun _ => hordered.ne_current_and_ne_parent hpath⟩

/-- **Making a story twice.** Once the story of a schema has been made or skipped, then after any
operations making it again skips it and changes nothing, and the text at its path is the one that
was there right after the first time. -/
theorem Schema.skipped_after_generate {schema : Schema} {memory made : Memory}
    {outcome : GenerateOutcome}
    (hgenerate : (Operation.generate schema).run memory = (.generate (.ok outcome), made)) :
    ∃ text, made.get? outcome.path = some text ∧
      (match outcome with
        | .created path => memory.get? path = none ∧
            ∃ source, memory.get? schema.sourcePath = some source ∧
              text = schema.storyText source
        | .skipped path => memory.get? path = some text) ∧
      ∀ operations : List Operation,
        let later := Operation.after operations made
        (Operation.generate schema).run later =
            (.generate (.ok (.skipped outcome.path)), later) ∧
          later.get? outcome.path = some text := by
  cases hsource : memory.get? schema.sourcePath with
  | none =>
      rw [Operation.generate_run_of_none hsource] at hgenerate
      cases hgenerate
  | some source =>
      have hmade : made = ((Operation.generate schema).run memory).2 := by rw [hgenerate]
      have hsourceMade : made.get? schema.sourcePath = some source :=
        hmade ▸ Operation.get?_run_eq_some hsource _
      -- From the texts of the component and the story alone, making the story again is known.
      have hlater (text : String) (hstory : made.get? schema.storyPath = some text)
          (operations : List Operation) :
          (Operation.generate schema).run (Operation.after operations made) =
              (.generate (.ok (.skipped schema.storyPath)), Operation.after operations made) ∧
            (Operation.after operations made).get? schema.storyPath = some text := by
        have hstoryLater := Operation.get?_after_eq_some hstory operations
        refine ⟨?_, hstoryLater⟩
        rw [Operation.generate_run_of_some
            (Operation.get?_after_eq_some hsourceMade operations),
          Memory.writeNew_of_get?_eq_some hstoryLater]
        rfl
      rw [Operation.generate_run_of_some hsource] at hgenerate
      cases hstory : memory.get? schema.storyPath with
      | none =>
          rw [Memory.writeNew_of_get?_eq_none hstory] at hgenerate
          cases hgenerate
          have hnew : (memory.insert schema.storyPath (schema.storyText source)).get?
              schema.storyPath = some (schema.storyText source) := by
            rw [Memory.get?_insert, if_pos rfl]
          exact ⟨_, hnew, ⟨hstory, source, rfl, rfl⟩, hlater _ hnew⟩
      | some old =>
          rw [Memory.writeNew_of_get?_eq_some hstory] at hgenerate
          cases hgenerate
          exact ⟨old, hstory, hstory, hlater old hstory⟩

theorem Schema.skipped_after_generate_badge :
    let schema : Schema := ⟨"lib", "ui.module.ts", "UiModule", "Badge", "badge", "badge.component"⟩
    let memory := Memory.ofFiles [(⟨"lib/badge/badge.component.ts"⟩, "")]
    let made := memory.insert schema.storyPath (schema.storyText "")
    let later := Operation.after
      [.write ⟨"lib/./badge/badge.component.stories.ts"⟩ "mine", .generate schema] made
    (Operation.generate schema).run memory = (.generate (.ok (.created schema.storyPath)), made) ∧
      (Operation.generate schema).run later =
        (.generate (.ok (.skipped schema.storyPath)), later) ∧
      later.get? schema.storyPath = some (schema.storyText "") := by
  intro schema memory made later
  have hsource : memory.get? schema.sourcePath = some "" := by decide +kernel
  have hstory : memory.get? schema.storyPath = none := by decide +kernel
  have hgenerate : (Operation.generate schema).run memory =
      (.generate (.ok (.created schema.storyPath)), made) := by
    rw [Operation.generate_run_of_some hsource, Memory.writeNew_of_get?_eq_none hstory]
    rfl
  obtain ⟨text, hmade, -, hlater⟩ := skipped_after_generate hgenerate
  obtain rfl : schema.storyText "" = text := by
    rw [GenerateOutcome.path, Memory.get?_insert, if_pos rfl] at hmade
    exact Option.some.inj hmade
  exact ⟨hgenerate, hlater _⟩

end StoryKnobs

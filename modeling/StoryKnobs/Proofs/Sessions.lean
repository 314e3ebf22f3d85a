import Mathlib
import StoryKnobs.Proofs.JsonReports
import StoryKnobs.Proofs.Tasks

/-!
# What sessions tell

Over a session, whatever fails, files are only ever added: one for each run that tells of a story
that has been created. A run that fails changes nothing, and neither does one that lists inputs.
-/

namespace StoryKnobs

def Disk.Apart (disk : Disk) (path other : Path) : Prop :=
  ∃ location entry place found, disk.find path = .ok (location, entry) ∧
    disk.find other = .ok (place, found) ∧ location ≠ place

namespace Command

open DiskStore (disk)

/-! ### What outcomes are called -/

theorem outcomeText_ne_empty (format : Format) (outcome : GenerateOutcome) :
    outcomeText format outcome ≠ "" := by
  intro hempty
  have hlist := congrArg String.toList hempty
  cases format <;> cases outcome <;> simp [outcomeText] at hlist

theorem outcomeText_injective (format : Format) : Function.Injective (outcomeText format) := by
  intro outcome other heq
  cases format with
  | text =>
      have hlist := congrArg String.toList heq
      obtain ⟨⟨path⟩⟩ | ⟨⟨path⟩⟩ := outcome <;> obtain ⟨⟨place⟩⟩ | ⟨⟨place⟩⟩ := other <;>
        simp [outcomeText] at hlist
      · rw [String.toList_inj.mp hlist]
      · rw [String.toList_inj.mp hlist]
  | json =>
      -- Both texts are documents, which are read back as the same value.
      have hdocument : (Result.made outcome).document = (Result.made other).document := by
        have hlist := congrArg String.toList heq
        rw [outcomeText, outcomeText, String.toList_append, String.toList_append] at hlist
        exact String.toList_inj.mp (List.append_cancel_right hlist)
      have hvalue := parse_document (.made outcome)
      rw [hdocument, parse_document] at hvalue
      obtain ⟨⟨path⟩⟩ | ⟨⟨path⟩⟩ := outcome <;> obtain ⟨⟨place⟩⟩ | ⟨⟨place⟩⟩ := other <;>
        simp [Result.value, GenerateOutcome.path, GenerateOutcome.isCreated] at hvalue
      · rw [hvalue]
      · rw [hvalue]

/-! ### Turns -/

/-- The arguments are understood, and do not ask for a quiet run. -/
def IsSpoken (arguments : List String) : Prop :=
  ∃ settings task, read arguments = .ok (settings, task) ∧ settings.quiet = false

def Turn.Tells {σ : Type} (turn : Turn σ) (outcome : GenerateOutcome) : Prop :=
  ∃ settings schemaFile fields, read turn.arguments = .ok (settings, .generate schemaFile fields) ∧
    turn.report.output = outcomeText settings.format outcome

theorem tells_iff {σ : Type} {turn : Turn σ} {settings : Settings} {schemaFile : Option Path}
    {fields : Schema.Draft}
    (hread : read turn.arguments = .ok (settings, .generate schemaFile fields))
    (outcome : GenerateOutcome) :
    turn.Tells outcome ↔ turn.report.output = outcomeText settings.format outcome := by
  refine ⟨?_, fun houtput => ⟨settings, schemaFile, fields, hread, houtput⟩⟩
  rintro ⟨other, file, draft, hother, houtput⟩
  rw [hread] at hother
  cases hother
  exact houtput

section

variable {σ : Type} [DiskStore σ]

/-- What a run tells is what it has done. -/
structure Turn.Honest (turn : Turn σ) : Prop where
  code : turn.report.code = 0 ∨ turn.report.code = 1
  failed : turn.report.code = 1 → turn.report.output = "" ∧ turn.report.failures.length = 1 ∧
    disk turn.after = disk turn.before
  inputs : ∀ settings file, read turn.arguments = .ok (settings, .inputs file) →
    disk turn.after = disk turn.before
  created : ∀ settings schemaFile fields schema gathered,
    read turn.arguments = .ok (settings, .generate schemaFile fields) →
    (resolve schemaFile fields : StateM σ _) turn.before = (.ok schema, gathered) →
    (turn.Tells (.created schema.storyPath) ↔
      (disk turn.before).contains schema.storyPath = false ∧
        (disk turn.after).contains schema.storyPath = true)
  skipped : ∀ settings schemaFile fields schema gathered,
    read turn.arguments = .ok (settings, .generate schemaFile fields) →
    (resolve schemaFile fields : StateM σ _) turn.before = (.ok schema, gathered) →
    (turn.Tells (.skipped schema.storyPath) ↔
      turn.report.code = 0 ∧ (disk turn.before).contains schema.storyPath = true)

variable {turn : Turn σ} {settings : Settings} {task : Task} {events : List Log.Event}
  {arguments : List String} {store : σ}

/-- An outcome says whether something was at the path of the story. -/
theorem outcome_eq_iff {schema : Schema} {outcome : GenerateOutcome} {before after : Disk}
    (hgenerated : schema.Generated before (.ok outcome, after)) :
    (outcome = .created schema.storyPath ↔
      before.contains schema.storyPath = false ∧ after.contains schema.storyPath = true) ∧
    (outcome = .skipped schema.storyPath ↔ before.contains schema.storyPath = true) := by
  cases hgenerated with
  | created text location file hread hfile hnone habsent hfind =>
      have hpresent := Disk.contains_eq_true_iff.mpr ⟨location, file, hfind⟩
      simp [habsent, hpresent]
  | skipped hpresent => simp [hpresent]

theorem honest_of_failure {message : String} (hquiet : settings.quiet = false)
    (hreport : turn.report = (Result.failure message).report settings events)
    (hdisk : disk turn.after = disk turn.before) : turn.Honest := by
  have hcode : turn.report.code = 1 := by
    rw [hreport]
    rfl
  have hsilent (outcome : GenerateOutcome) : ¬turn.Tells outcome := by
    rintro ⟨other, file, draft, -, houtput⟩
    rw [hreport] at houtput
    exact outcomeText_ne_empty _ _ houtput.symm
  constructor
  case code => exact .inr hcode
  case failed =>
    rw [hreport]
    exact fun _ => ⟨rfl, by simp [Result.report, hquiet], hdisk⟩
  case inputs => exact fun _ _ _ => hdisk
  case created =>
    rintro other file draft schema gathered - -
    simp [hsilent, hdisk]
  case skipped =>
    rintro other file draft schema gathered - -
    simp [hsilent, hcode]

theorem honest_of_listed {file : Path} {inputs : List Input}
    (hread : read turn.arguments = .ok (settings, .inputs file))
    (hreport : turn.report = (Result.listed file inputs).report settings events)
    (hdisk : disk turn.after = disk turn.before) : turn.Honest := by
  have hcode : turn.report.code = 0 := by
    rw [hreport]
    rfl
  constructor
  case code => exact .inl hcode
  case failed =>
    rw [hcode]
    exact fun hone => absurd hone Nat.zero_ne_one
  case inputs => exact fun _ _ _ => hdisk
  case created =>
    intro other schemaFile fields schema gathered hother
    rw [hread] at hother
    cases hother
  case skipped =>
    intro other schemaFile fields schema gathered hother
    rw [hread] at hother
    cases hother

theorem honest_of_made {schemaFile : Option Path} {fields : Schema.Draft} {schema : Schema}
    {gathered : σ} {outcome : GenerateOutcome} (hquiet : settings.quiet = false)
    (hread : read turn.arguments = .ok (settings, .generate schemaFile fields))
    (hreport : turn.report = (Result.made outcome).report settings events)
    (hresolve : (resolve schemaFile fields : StateM σ _) turn.before = (.ok schema, gathered))
    (hgenerated : schema.Generated (disk turn.before) (.ok outcome, disk turn.after)) :
    turn.Honest := by
  have hcode : turn.report.code = 0 := by
    rw [hreport]
    rfl
  have htells (other : GenerateOutcome) : turn.Tells other ↔ outcome = other := by
    rw [tells_iff hread, hreport, Result.report, output_succeeded settings events hquiet]
    exact (outcomeText_injective settings.format).eq_iff
  constructor
  case code => exact .inl hcode
  case failed =>
    rw [hcode]
    exact fun hone => absurd hone Nat.zero_ne_one
  case inputs =>
    intro other file hother
    rw [hread] at hother
    cases hother
  case created =>
    intro other file draft found read hother hfound
    rw [hread] at hother
    cases hother
    rw [hresolve] at hfound
    cases hfound
    rw [htells]
    exact (outcome_eq_iff hgenerated).1
  case skipped =>
    intro other file draft found read hother hfound
    rw [hread] at hother
    cases hother
    rw [hresolve] at hfound
    cases hfound
    rw [htells, hcode]
    simpa using (outcome_eq_iff hgenerated).2

theorem honest_ofRun (hread : read arguments = .ok (settings, task))
    (hquiet : settings.quiet = false) (store : σ) : (Turn.ofRun arguments store).Honest := by
  obtain ⟨events, hrun⟩ := reports_run hread store
  have hends := ends_result task store
  generalize (task.result : StateM σ Result) store = ended at hrun hends
  rw [Turn.ofRun, hrun]
  cases hends with
  | failure message after hdisk => exact honest_of_failure hquiet rfl hdisk
  | listed file inputs after htask hdisk => exact honest_of_listed (htask ▸ hread) rfl hdisk
  | made schemaFile fields schema gathered after outcome htask hresolve hgenerated =>
      exact honest_of_made hquiet (htask ▸ hread) rfl hresolve hgenerated

theorem keptBy_ofRun (hread : read arguments = .ok (settings, task)) (store : σ) :
    (disk store).KeptBy (disk (Turn.ofRun arguments store).after) := by
  obtain ⟨events, hrun⟩ := reports_run hread store
  have hkept := (ends_result task store).keptBy
  rw [Turn.ofRun, hrun]
  exact hkept

/-- A story that is told to have been created is at a place at which nothing was before. -/
theorem exists_of_tells_created (hread : read arguments = .ok (settings, task))
    (hquiet : settings.quiet = false) {path : Path}
    (htells : (Turn.ofRun arguments store).Tells (.created path)) :
    (disk store).contains path = false ∧ ∃ location entry,
      Disk.entry? (disk store) location = none ∧
      (disk (Turn.ofRun arguments store).after).find path = .ok (location, entry) := by
  obtain ⟨events, hrun⟩ := reports_run hread store
  have hends := ends_result task store
  generalize (task.result : StateM σ Result) store = ended at hrun hends
  obtain ⟨other, file, draft, hother, houtput⟩ := htells
  change read arguments = _ at hother
  rw [hread] at hother
  cases hother
  rw [Turn.ofRun, hrun] at houtput ⊢
  cases hends with
  | failure message after hdisk => exact absurd houtput.symm (outcomeText_ne_empty _ _)
  | listed file inputs after htask hdisk => cases htask
  | made schemaFile fields schema gathered after outcome htask hresolve hgenerated =>
      rw [Result.report, output_succeeded settings events hquiet] at houtput
      obtain rfl := outcomeText_injective _ houtput
      dsimp only
      generalize disk after = left at hgenerated
      cases hgenerated with
      | created text location file hread hfile hnone habsent hfind =>
          exact ⟨habsent, location, file, hnone, hfind⟩

/-! ### Sessions -/

section

variable {invocations : List (List String)}

theorem honest_of_mem_session (hspoken : ∀ arguments ∈ invocations, IsSpoken arguments)
    (store : σ) : ∀ turn ∈ session invocations store, turn.Honest := by
  induction invocations generalizing store with
  | nil => exact fun turn hmem => absurd hmem List.not_mem_nil
  | cons arguments invocations ih =>
      intro turn hmem
      rcases List.mem_cons.mp hmem with rfl | hmem
      · obtain ⟨settings, task, hread, hquiet⟩ := hspoken arguments List.mem_cons_self
        exact honest_ofRun hread hquiet store
      · exact ih (fun other hother => hspoken other (List.mem_cons_of_mem _ hother)) _ turn hmem

theorem pairwise_keptBy (hspoken : ∀ arguments ∈ invocations, IsSpoken arguments) (store : σ) :
    (store :: (session invocations store).map Turn.after).Pairwise
      fun earlier later => (disk earlier).KeptBy (disk later) := by
  induction invocations generalizing store with
  | nil => exact List.pairwise_singleton _ _
  | cons arguments invocations ih =>
      obtain ⟨settings, task, hread, -⟩ := hspoken arguments List.mem_cons_self
      have hfirst := keptBy_ofRun hread store
      have hrest := ih (fun other hother => hspoken other (List.mem_cons_of_mem _ hother))
        (Turn.ofRun arguments store).after
      rw [session, List.map_cons]
      refine List.pairwise_cons.mpr ⟨fun later hmem => ?_, hrest⟩
      rcases List.mem_cons.mp hmem with rfl | hmem
      · exact hfirst
      · exact hfirst.trans (List.rel_of_pairwise_cons hrest hmem)

/-- Every turn is a run, from a state in which everything from the start has been kept. -/
theorem exists_of_mem_session (hspoken : ∀ arguments ∈ invocations, IsSpoken arguments) {store : σ}
    {turn : Turn σ} (hmem : turn ∈ session invocations store) :
    ∃ arguments ∈ invocations, ∃ before, turn = .ofRun arguments before ∧
      (disk store).KeptBy (disk before) := by
  induction invocations generalizing store with
  | nil => exact absurd hmem List.not_mem_nil
  | cons arguments invocations ih =>
      rcases List.mem_cons.mp hmem with rfl | hmem
      · exact ⟨arguments, List.mem_cons_self, store, rfl, .refl _⟩
      · obtain ⟨settings, task, hread, -⟩ := hspoken arguments List.mem_cons_self
        obtain ⟨other, hother, before, hturn, hkept⟩ :=
          ih (fun other hother => hspoken other (List.mem_cons_of_mem _ hother)) hmem
        exact ⟨other, List.mem_cons_of_mem _ hother, before, hturn,
          (keptBy_ofRun hread store).trans hkept⟩

theorem pairwise_apart (hspoken : ∀ arguments ∈ invocations, IsSpoken arguments) (store : σ) :
    (session invocations store).Pairwise fun earlier later =>
      ∀ path other, earlier.Tells (.created path) → later.Tells (.created other) →
        path ≠ other ∧ (disk later.after).Apart path other := by
  induction invocations generalizing store with
  | nil => exact .nil
  | cons arguments invocations ih =>
      have hrest := fun other hother => hspoken other (List.mem_cons_of_mem arguments hother)
      refine List.pairwise_cons.mpr ⟨fun later hmem path other htells hlater => ?_, ih hrest _⟩
      obtain ⟨settings, task, hread, hquiet⟩ := hspoken arguments List.mem_cons_self
      obtain ⟨-, location, entry, -, hfind⟩ := exists_of_tells_created hread hquiet htells
      obtain ⟨next, hnext, before, rfl, hkept⟩ := exists_of_mem_session hrest hmem
      obtain ⟨settings, task, hread, hquiet⟩ := hrest next hnext
      obtain ⟨habsent, place, found, hnone, hplace⟩ := exists_of_tells_created hread hquiet hlater
      -- What the earlier run has created is still there, so the later one cannot create it.
      have hbefore := hkept.find_eq hfind
      constructor
      · rintro rfl
        rw [Disk.contains_eq_true_iff.mpr ⟨location, entry, hbefore⟩] at habsent
        cases habsent
      · refine ⟨location, entry, place, found, (keptBy_ofRun hread before).find_eq hbefore, hplace,
          ?_⟩
        rintro rfl
        obtain ⟨route, -, -, hentry⟩ := Disk.find_eq_ok_iff.mp hbefore
        rw [hnone] at hentry
        cases hentry

end

/-- The turns of a session have the reports of runs one after another. -/
theorem reports_session (invocations : List (List String)) (store : σ) :
    ((invocations.mapM run : StateM σ (List Report)) store).1 =
      (session invocations store).map Turn.report := by
  induction invocations generalizing store with
  | nil => rfl
  | cons arguments invocations ih =>
      rw [List.mapM_cons, session, List.map_cons, ← ih]
      rfl

/-- **Runs tell what they have done.** Whatever fails in a session of runs that talk, each of them
tells just what it has done to the disk. Whatever is on the disk at some time is still there and the
same at all later times. No two runs tell that they have created the same story, however its path is
spelled. -/
theorem session_honest (invocations : List (List String))
    (hspoken : ∀ arguments ∈ invocations, IsSpoken arguments) (store : σ) :
    (∀ turn ∈ session invocations store, turn.Honest) ∧
    ((store :: (session invocations store).map Turn.after).Pairwise
      fun earlier later => (disk earlier).KeptBy (disk later)) ∧
    (session invocations store).Pairwise fun earlier later =>
      ∀ path other, earlier.Tells (.created path) → later.Tells (.created other) →
        path ≠ other ∧ (disk later.after).Apart path other :=
  ⟨honest_of_mem_session hspoken store, pairwise_keptBy hspoken store, pairwise_apart hspoken store⟩

/-- A story is made, and then it is there. -/
theorem session_honest_card :
    let generate := ["generate", "--lib-path", "lib", "--module-file-name", "ui.module.ts",
      "--ng-module-class-name", "UiModule", "--component-name", "Card",
      "--component-path", "card", "--component-file-name", "card"]
    let invocations := [generate, generate, ["inputs", "lib/card/card.ts"]]
    let start := Disk.ofEntries ["w"]
      [(⟨"lib/card/card.ts"⟩, .file "class Card \x7b\n  @Input() size = 2;\n\x7d\n".toUTF8)]
    (session invocations start).map (·.report.output) =
        ["CREATE lib/card/card.stories.ts\n",
          "SKIP lib/card/card.stories.ts (already exists)\n", "size: number = 2\n"] ∧
      (∀ arguments ∈ invocations, IsSpoken arguments) ∧
      (∀ turn ∈ session invocations start, turn.Honest) ∧
      (start :: (session invocations start).map Turn.after).Pairwise Disk.KeptBy := by
  intro generate invocations start
  have hspoken : ∀ arguments ∈ invocations, IsSpoken arguments := by
    intro arguments hmem
    simp only [invocations, List.mem_cons, List.not_mem_nil, or_false] at hmem
    rcases hmem with rfl | rfl | rfl
    · exact ⟨_, _, rfl, rfl⟩
    · exact ⟨_, _, rfl, rfl⟩
    · exact ⟨_, _, rfl, rfl⟩
  obtain ⟨hhonest, hkept, -⟩ := session_honest invocations hspoken start
  exact ⟨by decide +kernel, hspoken, hhonest, hkept⟩

end

end Command

end StoryKnobs

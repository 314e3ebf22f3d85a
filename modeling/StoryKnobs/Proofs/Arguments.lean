import Mathlib
import StoryKnobs.Command.Presentation

/-!
# Reading arguments without presentation options

Arguments are read as options and operands one after another. Each presentation option can be left
out, and what is read then differs in the settings only.
-/

namespace StoryKnobs.Command

/-- The arguments start with an option, and the last ones stand behind the option and its value,
which is empty if it has none. -/
inductive Takes (level : Level) : List String → Switch → String → List String → Prop where
  | joined {argument value : String} {rest : List String} {chars : List Char} {switch : Switch}
      (htext : argument.toList = '-' :: '-' :: chars) (hchars : chars ≠ [])
      (hvalue : (splitLong chars).2 = some value)
      (hlong : level.long? (splitLong chars).1 = some switch) (hhas : switch.hasValue = true) :
      Takes level (argument :: rest) switch value rest
  | apart {argument value : String} {rest : List String} {chars : List Char} {switch : Switch}
      (htext : argument.toList = '-' :: '-' :: chars) (hchars : chars ≠ [])
      (hvalue : (splitLong chars).2 = none)
      (hlong : level.long? (splitLong chars).1 = some switch) (hhas : switch.hasValue = true)
      (hplain : isPlain value = true) :
      Takes level (argument :: value :: rest) switch value rest
  | alone {argument : String} {rest : List String} {chars : List Char} {switch : Switch}
      (htext : argument.toList = '-' :: '-' :: chars) (hchars : chars ≠ [])
      (hvalue : (splitLong chars).2 = none)
      (hlong : level.long? (splitLong chars).1 = some switch) (hhas : switch.hasValue = false) :
      Takes level (argument :: rest) switch "" rest
  | letter {argument : String} {rest : List String} (htext : argument.toList = ['-', 'v']) :
      Takes level (argument :: rest) .verbose "" rest

variable {level : Level} {given other result : Given} {switch : Switch} {name value : String}
  {argument operand : String} {arguments rest : List String} {chars : List Char}

theorem bind_eq_ok {α β ε : Type} {first : Except ε α} {next : α → Except ε β} {value : β}
    (hbind : first >>= next = .ok value) :
    ∃ middle, first = .ok middle ∧ next middle = .ok value := by
  cases first with
  | error error => cases hbind
  | ok middle => exact ⟨middle, rfl, hbind⟩

/-! ### Options that have been read -/

theorem set_eq_ok (hset : given.set switch value = .ok other) :
    switch ≠ .help ∧ switch ≠ .version ∧ given.has switch = false ∧ switch.accepts value = true ∧
      other = { given with switches := (switch, value) :: given.switches } := by
  unfold Given.set at hset
  split at hset
  next => cases hset
  next => cases hset
  next hhelp hversion =>
    split_ifs at hset with hrefused
    simp only [Bool.or_eq_true, Bool.not_eq_true', not_or, Bool.not_eq_true,
      Bool.not_eq_false] at hrefused
    cases hset
    exact ⟨hhelp, hversion, hrefused.1, hrefused.2, rfl⟩

theorem set_of_has_eq_false (hhelp : switch ≠ .help) (hversion : switch ≠ .version)
    (hhas : given.has switch = false) (haccepts : switch.accepts value = true) :
    given.set switch value =
      .ok { given with switches := (switch, value) :: given.switches } := by
  unfold Given.set
  split
  next => exact absurd rfl hhelp
  next => exact absurd rfl hversion
  next => simp [hhas, haccepts]

/-- Letters can be read only if there is one, which is that of the option `verbose`. -/
theorem setLetters_eq_ok {letter : Char} {letters : List Char}
    (hset : given.setLetters level (letter :: letters) = .ok other) :
    letter = 'v' ∧ letters = [] ∧ given.set .verbose "" = .ok other := by
  have hfirst {given : Given} {letter : Char} {letters : List Char}
      (hset : given.setLetters level (letter :: letters) = .ok other) :
      letter = 'v' ∧ ∃ middle, given.set .verbose "" = .ok middle ∧
        middle.setLetters level letters = .ok other := by
    rw [Given.setLetters] at hset
    split at hset
    next => cases hset
    next switch hshort =>
      obtain ⟨middle, hmiddle, hrest⟩ := bind_eq_ok hset
      rw [Level.short?] at hshort
      split_ifs at hshort with hverbose
      · cases hshort
        exact ⟨by simpa using hverbose, middle, hmiddle, hrest⟩
      · cases hshort
        cases hmiddle
      · cases hshort
        cases hmiddle
  obtain ⟨rfl, middle, hmiddle, hrest⟩ := hfirst hset
  cases letters with
  | nil =>
      cases hrest
      exact ⟨rfl, rfl, hmiddle⟩
  | cons next letters =>
      obtain ⟨rfl, last, hlast, -⟩ := hfirst hrest
      obtain ⟨-, -, -, -, rfl⟩ := set_eq_ok hmiddle
      obtain ⟨-, -, hhas, -⟩ := set_eq_ok hlast
      simp [Given.has, Given.value?] at hhas

theorem setLetters_of_set (hset : given.set .verbose "" = .ok other) :
    given.setLetters level ['v'] = .ok other := by
  change (given.set .verbose "" >>= fun other => other.setLetters level []) = _
  rw [hset]
  rfl

def Given.bare (given : Given) : Given :=
  { given with switches := given.switches.filter fun found => !found.1.isPresentation }

theorem value?_bare (hswitch : switch.isPresentation = false) (given : Given) :
    given.bare.value? switch = given.value? switch := by
  rw [Given.value?, Given.value?, Given.bare]
  induction given.switches with
  | nil => rfl
  | cons found switches ih =>
      obtain ⟨first, value⟩ := found
      by_cases hfirst : first.isPresentation = true
      · have hne : switch ≠ first := by
          rintro rfl
          rw [hswitch] at hfirst
          cases hfirst
        simpa [List.filter_cons, hfirst, List.lookup_cons, beq_eq_false_iff_ne.mpr hne] using ih
      · simp_all [List.lookup_cons]

theorem value?_bare_eq_none (hswitch : switch.isPresentation = true) (given : Given) :
    given.bare.value? switch = none := by
  rw [Given.value?, List.lookup_eq_none_iff]
  rintro ⟨other, value⟩ hmem
  have hother : (!other.isPresentation) = true := (List.mem_filter.mp hmem).2
  rw [bne_iff_ne]
  rintro rfl
  rw [hswitch] at hother
  cases hother

theorem bare_of_set (hswitch : switch.isPresentation = true)
    (hset : given.set switch value = .ok other) : other.bare = given.bare := by
  obtain ⟨-, -, -, -, rfl⟩ := set_eq_ok hset
  simp [Given.bare, hswitch]

theorem set_bare (hswitch : switch.isPresentation = false)
    (hset : given.set switch value = .ok other) : given.bare.set switch value = .ok other.bare := by
  obtain ⟨hhelp, hversion, hhas, haccepts, rfl⟩ := set_eq_ok hset
  rw [Given.has, ← value?_bare hswitch, ← Given.has] at hhas
  rw [set_of_has_eq_false hhelp hversion hhas haccepts]
  simp [Given.bare, hswitch]

theorem addOperand_bare (hoperand : given.addOperand level operand = .ok other) :
    given.bare.addOperand level operand = .ok other.bare := by
  rw [Given.addOperand] at hoperand
  split_ifs at hoperand with hfirst
  cases hoperand
  exact if_pos hfirst

/-! ### Arguments one after another -/

theorem isPlain_eq_true_iff :
    isPlain argument = true ↔ ∀ letter letters, argument.toList ≠ '-' :: letter :: letters := by
  rw [isPlain]
  split
  next letter letters htext => simp [htext]
  next hletters => simpa using hletters

theorem Takes.length_lt (htakes : Takes level arguments switch value rest) :
    rest.length < arguments.length := by
  cases htakes <;> simp

/-- What stands in front of what is read from some arguments behind a command: `--`, an option, or
an operand. -/
theorem readOptions_cons_eq_ok
    (hread : readOptions level false given (argument :: arguments) = .ok result) :
    (argument.toList = ['-', '-'] ∧ readOptions level true given arguments = .ok result) ∨
    (∃ switch value rest other, Takes level (argument :: arguments) switch value rest ∧
      given.set switch value = .ok other ∧ readOptions level false other rest = .ok result) ∨
    (isPlain argument = true ∧ ∃ other, given.addOperand level argument = .ok other ∧
      readOptions level false other arguments = .ok result) := by
  unfold readOptions at hread
  split at hread
  next htext => exact .inl ⟨htext, hread⟩
  next chars hchars htext =>
    split at hread
    next => cases hread
    next switch value hlong hvalue =>
      split_ifs at hread with hhas
      obtain ⟨other, hset, hrest⟩ := bind_eq_ok hread
      exact .inr (.inl ⟨_, _, _, _, .joined htext hchars hvalue hlong hhas, hset, hrest⟩)
    next switch hlong hvalue =>
      split_ifs at hread with hhas
      · split at hread
        next value others =>
          split_ifs at hread with hplain
          obtain ⟨other, hset, hrest⟩ := bind_eq_ok hread
          exact .inr (.inl ⟨_, _, _, _, .apart htext hchars hvalue hlong hhas hplain, hset, hrest⟩)
        next => cases hread
      · obtain ⟨other, hset, hrest⟩ := bind_eq_ok hread
        exact .inr (.inl ⟨_, _, _, _, .alone htext hchars hvalue hlong (by simpa using hhas), hset,
          hrest⟩)
  next letter letters hdashes hdash htext =>
    obtain ⟨other, hset, hrest⟩ := bind_eq_ok hread
    obtain ⟨rfl, rfl, hverbose⟩ := setLetters_eq_ok hset
    exact .inr (.inl ⟨_, _, _, _, .letter htext, hverbose, hrest⟩)
  next hdashes hlong hletters =>
    obtain ⟨other, hoperand, hrest⟩ := bind_eq_ok hread
    exact .inr (.inr ⟨isPlain_eq_true_iff.mpr hletters, other, hoperand, hrest⟩)

theorem Takes.readOptions_eq (htakes : Takes level arguments switch value rest)
    (hset : given.set switch value = .ok other) :
    readOptions level false given arguments = readOptions level false other rest := by
  cases htakes with
  | joined htext hchars hvalue hlong hhas =>
      conv_lhs => unfold readOptions
      simp only [htext, hlong, hvalue, hhas, hset, if_true]
      rfl
  | apart htext hchars hvalue hlong hhas hplain =>
      conv_lhs => unfold readOptions
      simp only [htext, hlong, hvalue, hhas, hplain, hset, if_true]
      rfl
  | alone htext hchars hvalue hlong hhas =>
      conv_lhs => unfold readOptions
      simp only [htext, hlong, hvalue, hhas, hset]
      rfl
  | letter htext =>
      conv_lhs => unfold readOptions
      simp only [htext]
      change (given.setLetters level ['v'] >>= fun other => readOptions level false other rest) = _
      rw [setLetters_of_set hset]
      rfl

theorem readOptions_of_isPlain (hplain : isPlain argument = true)
    (hoperand : given.addOperand level argument = .ok other) :
    readOptions level false given (argument :: arguments) =
      readOptions level false other arguments := by
  rw [isPlain_eq_true_iff] at hplain
  conv_lhs => unfold readOptions
  split
  next htext => exact absurd htext (hplain _ _)
  next htext => exact absurd htext (hplain _ _)
  next htext => exact absurd htext (hplain _ _)
  next =>
    rw [hoperand]
    rfl

/-! ### Arguments without presentation options -/

theorem bare_of_isPlain (hplain : isPlain argument = true) (arguments : List String) :
    bare (argument :: arguments) = argument :: bare arguments := by
  rw [isPlain_eq_true_iff] at hplain
  conv_lhs => unfold bare
  split
  next htext => exact absurd htext (hplain _ _)
  next htext => exact absurd htext (hplain _ _)
  next htext => exact absurd htext (hplain _ _)
  next => rfl

theorem long?_of_presentation? (hname : presentation? name = some switch) (level : Level) :
    level.long? name = some switch ∧ switch.isPresentation = true := by
  unfold presentation? at hname
  unfold Level.long?
  split_ifs at hname ⊢
  all_goals
    cases hname
    exact ⟨rfl, rfl⟩

theorem isPresentation_of_long? (hlong : level.long? name = some switch)
    (hname : presentation? name = none) : switch.isPresentation = false := by
  unfold presentation? at hname
  unfold Level.long? at hlong
  split_ifs at hname with houtput hquiet hverbose
  rw [if_neg houtput, if_neg hquiet, if_neg hverbose] at hlong
  split at hlong
  next => cases hlong; rfl
  next =>
    cases level with
    | top =>
        dsimp only at hlong
        split at hlong <;> cases hlong
        rfl
    | generate =>
        dsimp only at hlong
        split at hlong
        · cases hlong
          rfl
        · obtain ⟨field, -, rfl⟩ := Option.map_eq_some_iff.mp hlong
          rfl
    | inputs => cases hlong

theorem presentation?_of_long? (hlong : level.long? name = some switch) :
    presentation? name = if switch.isPresentation then some switch else none := by
  cases hname : presentation? name with
  | some found =>
      obtain ⟨hfound, hswitch⟩ := long?_of_presentation? hname level
      obtain rfl := Option.some.inj (hfound.symm.trans hlong)
      rw [if_pos hswitch]
  | none => rw [isPresentation_of_long? hlong hname, if_neg Bool.false_ne_true]

theorem Takes.bare (htakes : Takes level arguments switch value rest) :
    if switch.isPresentation then bare arguments = bare rest
    else Takes level (bare arguments) switch value (bare rest) := by
  cases htakes with
  | joined htext hchars hvalue hlong hhas =>
      have hname := presentation?_of_long? hlong
      split_ifs at hname ⊢
      · conv_lhs => unfold Command.bare
        simp only [htext, hname, hvalue]
      · conv in Command.bare (_ :: _) => unfold Command.bare
        simp only [htext, hname, hvalue]
        exact .joined htext hchars hvalue hlong hhas
  | apart htext hchars hvalue hlong hhas hplain =>
      have hname := presentation?_of_long? hlong
      split_ifs at hname ⊢
      · conv_lhs => unfold Command.bare
        simp only [htext, hname, hvalue, hhas, if_true]
      · conv in Command.bare (_ :: _) => unfold Command.bare
        simp only [htext, hname, hvalue]
        rw [bare_of_isPlain hplain]
        exact .apart htext hchars hvalue hlong hhas hplain
  | alone htext hchars hvalue hlong hhas =>
      have hname := presentation?_of_long? hlong
      split_ifs at hname ⊢
      · conv_lhs => unfold Command.bare
        simp only [htext, hname, hvalue, hhas]
        rfl
      · conv in Command.bare (_ :: _) => unfold Command.bare
        simp only [htext, hname, hvalue]
        exact .alone htext hchars hvalue hlong hhas
  | letter htext =>
      change Command.bare _ = Command.bare _
      conv_lhs => unfold Command.bare
      simp only [htext]

theorem readOptions_closed_bare (hread : readOptions level true given arguments = .ok result) :
    readOptions level true given.bare arguments = .ok result.bare := by
  induction arguments generalizing given with
  | nil =>
      unfold readOptions at hread ⊢
      cases hread
      rfl
  | cons argument arguments ih =>
      unfold readOptions at hread ⊢
      obtain ⟨other, hoperand, hrest⟩ := bind_eq_ok hread
      rw [addOperand_bare hoperand]
      exact ih hrest

theorem readOptions_bare (hread : readOptions level false given arguments = .ok result) :
    readOptions level false given.bare (bare arguments) = .ok result.bare := by
  induction hlength : arguments.length using Nat.strong_induction_on
    generalizing given arguments with
  | _ count ih =>
      subst hlength
      cases arguments with
      | nil =>
          unfold readOptions at hread
          cases hread
          rfl
      | cons argument arguments =>
          obtain ⟨htext, hclosed⟩ | ⟨switch, value, rest, other, htakes, hset, hrest⟩ |
            ⟨hplain, other, hoperand, hrest⟩ := readOptions_cons_eq_ok hread
          · have hkept : bare (argument :: arguments) = argument :: arguments := by
              unfold bare
              simp only [htext]
            rw [hkept]
            unfold readOptions
            simp only [htext]
            exact readOptions_closed_bare hclosed
          · have hbare := ih _ htakes.length_lt hrest rfl
            have hshape := htakes.bare
            split_ifs at hshape with hswitch
            · rwa [hshape, ← bare_of_set hswitch hset]
            · rwa [hshape.readOptions_eq (set_bare (by simpa using hswitch) hset)]
          · rw [bare_of_isPlain hplain, readOptions_of_isPlain hplain (addOperand_bare hoperand)]
            exact ih _ (by simp) hrest rfl

theorem readTop_cons_eq_ok {front : Given} {behind : List String}
    (hread : readTop given (argument :: arguments) = .ok (front, name, behind)) :
    (∃ switch value rest other, Takes .top (argument :: arguments) switch value rest ∧
      given.set switch value = .ok other ∧ readTop other rest = .ok (front, name, behind)) ∨
    (isPlain argument = true ∧ front = given ∧ name = argument ∧ behind = arguments) := by
  unfold readTop at hread
  split at hread
  next => cases hread
  next chars hchars htext =>
    split at hread
    next => cases hread
    next switch value hlong hvalue =>
      split_ifs at hread with hhas
      obtain ⟨other, hset, hrest⟩ := bind_eq_ok hread
      exact .inl ⟨_, _, _, _, .joined htext hchars hvalue hlong hhas, hset, hrest⟩
    next switch hlong hvalue =>
      split_ifs at hread with hhas
      · split at hread
        next value others =>
          split_ifs at hread with hplain
          obtain ⟨other, hset, hrest⟩ := bind_eq_ok hread
          exact .inl ⟨_, _, _, _, .apart htext hchars hvalue hlong hhas hplain, hset, hrest⟩
        next => cases hread
      · obtain ⟨other, hset, hrest⟩ := bind_eq_ok hread
        exact .inl ⟨_, _, _, _, .alone htext hchars hvalue hlong (by simpa using hhas), hset, hrest⟩
  next letter letters hdashes hdash htext =>
    obtain ⟨other, hset, hrest⟩ := bind_eq_ok hread
    obtain ⟨rfl, rfl, hverbose⟩ := setLetters_eq_ok hset
    exact .inl ⟨_, _, _, _, .letter htext, hverbose, hrest⟩
  next hdashes hlong hletters =>
    cases hread
    exact .inr ⟨isPlain_eq_true_iff.mpr hletters, rfl, rfl, rfl⟩

theorem readTop_of_isPlain (hplain : isPlain argument = true) (given : Given)
    (arguments : List String) :
    readTop given (argument :: arguments) = .ok (given, argument, arguments) := by
  rw [isPlain_eq_true_iff] at hplain
  unfold readTop
  split
  next htext => exact absurd htext (hplain _ _)
  next htext => exact absurd htext (hplain _ _)
  next htext => exact absurd htext (hplain _ _)
  next => rfl

theorem isPresentation_of_top (htakes : Takes .top arguments switch value rest)
    (hset : given.set switch value = .ok other) : switch.isPresentation = true := by
  obtain ⟨hhelp, hversion, -⟩ := set_eq_ok hset
  have hlong {name : String} (hlong : Level.top.long? name = some switch) :
      switch.isPresentation = true := by
    unfold Level.long? at hlong
    dsimp only at hlong
    split_ifs at hlong
    · cases hlong
      rfl
    · cases hlong
      rfl
    · cases hlong
      rfl
    · cases hlong
      exact absurd rfl hhelp
    · cases hlong
      exact absurd rfl hversion
  cases htakes with
  | joined _ _ _ hname => exact hlong hname
  | apart _ _ _ hname => exact hlong hname
  | alone _ _ _ hname => exact hlong hname
  | letter => rfl

theorem readTop_bare {front : Given} {behind : List String}
    (hread : readTop given arguments = .ok (front, name, behind)) :
    readTop .empty (bare arguments) = .ok (.empty, name, bare behind) := by
  induction hlength : arguments.length using Nat.strong_induction_on
    generalizing given arguments with
  | _ count ih =>
      subst hlength
      cases arguments with
      | nil =>
          unfold readTop at hread
          cases hread
      | cons argument arguments =>
          obtain ⟨switch, value, rest, other, htakes, hset, hrest⟩ | ⟨hplain, rfl, rfl, rfl⟩ :=
            readTop_cons_eq_ok hread
          · have hshape := htakes.bare
            rw [if_pos (isPresentation_of_top htakes hset)] at hshape
            rw [hshape]
            exact ih _ htakes.length_lt hrest rfl
          · rw [bare_of_isPlain hplain, readTop_of_isPlain hplain]

theorem ofGiven_bare (given : Given) :
    Settings.ofGiven .empty given.bare = ⟨.text, false, false⟩ := by
  have hnone (switch : Switch) (hswitch : switch.isPresentation = true) :
      given.bare.value? switch = none := value?_bare_eq_none hswitch given
  rw [Settings.ofGiven, Given.has, Given.has, Given.has, Given.has, hnone .format rfl,
    hnone .quiet rfl, hnone .verbose rfl]
  rfl

/-- **The task is told by the other options.** -/
theorem read_bare {settings : Settings} {task : Task}
    (hread : read arguments = .ok (settings, task)) :
    read (bare arguments) = .ok (⟨.text, false, false⟩, task) := by
  obtain ⟨⟨front, name, behind⟩, htop, hcommand⟩ := bind_eq_ok hread
  rw [read, readTop_bare htop]
  dsimp only at hcommand
  change (if name == "generate" then _ else if name == "inputs" then _ else _) = _
  split_ifs at hcommand ⊢ with hgenerate hinputs
  · obtain ⟨given, hoptions, hgiven⟩ := bind_eq_ok hcommand
    cases hgiven
    have hbare : readOptions .generate false .empty (bare behind) = .ok given.bare :=
      readOptions_bare hoptions
    rw [hbare]
    have hfields : (fun field => given.bare.value? (.field field)) =
        fun field => given.value? (.field field) := funext fun _ => value?_bare rfl given
    change Except.ok (Settings.ofGiven .empty given.bare,
      Task.generate ((given.bare.value? .schema).map Path.mk)
        fun field => given.bare.value? (.field field)) = _
    rw [ofGiven_bare, value?_bare rfl, hfields]
  · obtain ⟨⟨switches, operands⟩, hoptions, hgiven⟩ := bind_eq_ok hcommand
    have hbare : readOptions .inputs false .empty (bare behind) =
        .ok (Given.bare ⟨switches, operands⟩) := readOptions_bare hoptions
    rw [hbare]
    obtain _ | ⟨file, _ | ⟨next, operands⟩⟩ := operands
    · cases hgiven
    · cases hgiven
      change Except.ok (Settings.ofGiven .empty (Given.bare ⟨switches, [file]⟩),
        Task.inputs ⟨file⟩) = _
      rw [ofGiven_bare]
    · cases hgiven

end StoryKnobs.Command

import StoryKnobs.Grammar.Symbols

/-!
# Literals

Numbers, quoted texts, templates and regular expressions.
-/

namespace StoryKnobs.Grammar.Rule

open Syntax

variable {whole : List Char}

def number : Rule whole := do
  let length := numberLength (← rest)
  guard (0 < length)
  leaf "number" length

/-! ### Text without gaps -/

/-- A rule that never goes back. -/
def Advances (rule : Rule whole) : Prop :=
  ∀ input trees next, rule input = some (trees, next) → input.afterOffset ≤ next.afterOffset

theorem advances_fail : Advances (fail : Rule whole) := fun _ _ _ hread => nomatch hread

theorem advances_tight (kind : String) (count : Nat) (hkind : isPlain kind) :
    Advances (tight kind count hkind : Rule whole) := by
  intro input trees next hread
  obtain ⟨-, rfl⟩ := Prod.mk.inj (Option.some.inj hread)
  exact Nat.le_add_right _ _

theorem advances_after {rule : List Char → Rule whole} (hrule : ∀ chars, Advances (rule chars)) :
    Advances (after >>= rule) :=
  fun input trees next hread => hrule input.after input trees next hread

theorem advances_guard {condition : Prop} [Decidable condition] {rule : Rule whole}
    (hrule : Advances rule) : Advances (do guard condition; rule) := by
  by_cases hcondition : condition
  · have hguard : (guard condition : Parser whole PUnit) = pure () := if_pos hcondition
    rw [hguard]
    exact hrule
  · have hguard : (guard condition : Parser whole PUnit) = failure := if_neg hcondition
    rw [hguard]
    exact advances_fail

theorem advances_either {rule other : Rule whole} (hrule : Advances rule)
    (hother : Advances other) : Advances (either rule other) := by
  intro input trees next hread
  rw [either] at hread
  split at hread
  · rename_i result hresult
    exact hrule input trees next (hresult.trans hread)
  · exact hother input trees next hread

theorem advances_repeatUpTo {rule : Rule whole} (hrule : Advances rule) (count : Nat)
    (found : Forest whole) : Advances (repeatUpTo rule count found) := by
  induction count generalizing found with
  | zero =>
      intro input trees next hread
      obtain ⟨-, rfl⟩ := Prod.mk.inj (Option.some.inj hread)
      exact Nat.le_refl _
  | succ count ih =>
      intro input trees next hread
      rw [repeatUpTo] at hread
      dsimp only at hread
      split at hread
      · rename_i more middle hmore
        split at hread
        · exact Nat.le_trans (hrule input more middle hmore) (ih _ middle trees next hread)
        · obtain ⟨-, rfl⟩ := Prod.mk.inj (Option.some.inj hread)
          exact Nat.le_refl _
      · obtain ⟨-, rfl⟩ := Prod.mk.inj (Option.some.inj hread)
        exact Nat.le_refl _

theorem advances_many {rule : Rule whole} (hrule : Advances rule) : Advances (many rule) :=
  fun input => advances_repeatUpTo hrule (input.size + 1) ∅ input

def fragmentLength (quote : Char) : List Char → Nat :=
  runLength fun char => char != quote && char != '\\' && char != '\n' && char != '\r'

def escapeSequence : Rule whole := do
  match ← after with
  | '\\' :: chars =>
    let length := escapeLength chars
    guard (0 < length)
    tight "escape_sequence" (length + 1)
  | _ => fail

theorem advances_escapeSequence : Advances (escapeSequence : Rule whole) := by
  refine advances_after fun chars => ?_
  split
  · exact advances_guard (advances_tight _ _ _)
  · exact advances_fail

def fragment (length : List Char → Nat) : Rule whole := do
  let count := length (← after)
  guard (0 < count)
  tight "string_fragment" count

theorem advances_fragment (length : List Char → Nat) :
    Advances (fragment length : Rule whole) :=
  advances_after fun _ => advances_guard (advances_tight _ _ _)

def tightMark (text : String) : Rule whole := fun input =>
  if hstarts : text.toList.isPrefixOf input.after then
    some (.token text (input.spanAfter text.toList.length) (Input.covers_spanAfter hstarts),
      input.skipAfter text.toList.length)
  else none

/-! ### Quotations -/

/-- From one quote to a second one behind it, or to a place where it is missing, a text is quoted. -/
theorem quotation_of_le {input inside : Input whole} {quote : Char} {closing : Span}
    (hquote : quotes.contains quote) (hopen : [quote].isPrefixOf input.rest = true)
    (hle : (input.skip 1).afterOffset ≤ inside.afterOffset)
    (hstart : closing.start = inside.afterOffset)
    (hcloses : Covers whole closing [quote] ∨ Covers whole closing []) :
    Quotation whole quote (input.span 1) closing := by
  obtain ⟨body, hbody, hoffset⟩ :=
    (input.skip 1).after_isPlace.exists_append inside.after_isPlace hle
  refine ⟨List.mem_of_elem_eq_true hquote, Input.covers_span hopen, ⟨body, inside.after, ?_, ?_⟩,
    hcloses⟩
  · exact hbody ▸ (input.skip 1).after_isPlace
  · exact hstart.trans hoffset

/-- A text that starts with the quote `quote` and whose parts are read by `part`. A second quote
that is missing is supplied if `supplies` holds. -/
def quotation (quote : Char) (part : Rule whole) (supplies : Bool) (hquote : quotes.contains quote)
    (hpart : Advances part) : Rule whole := fun input =>
  if hopen : [quote].isPrefixOf input.rest then
    match hparts : many part (input.skip 1) with
    | none => none
    | some (parts, inside) =>
      have hle := advances_many hpart _ _ _ hparts
      if hclose : [quote].isPrefixOf inside.after then
        some (input.comments ++ .literal quote (input.span 1) (inside.spanAfter 1) parts
          (quotation_of_le hquote hopen hle rfl (.inl (Input.covers_spanAfter hclose))),
          inside.skipAfter 1)
      else if supplies then
        some (input.comments ++ .literal quote (input.span 1) (inside.spanAfter 0) parts
          (quotation_of_le hquote hopen hle rfl (.inr (Input.covers_spanAfter rfl))), inside)
      else none
  else none

def quotedBy (quote : Char) (supplies : Bool := false)
    (hquote : quotes.contains quote := by exact Eq.refl true) : Rule whole :=
  quotation quote (either (fragment (fragmentLength quote)) escapeSequence) supplies hquote
    (advances_either (advances_fragment _) advances_escapeSequence)

def quoted : Rule whole := either (quotedBy '\'') (quotedBy '"')

/-! ### Templates and regular expressions -/

/-- Length of the longest run of characters in a template before an escape, a hole or its end. -/
def templateLength : List Char → Nat
  | [] => 0
  | '$' :: '\x7b' :: _ => 0
  | char :: chars => if char == '`' || char == '\\' then 0 else templateLength chars + 1

def templateOf (kind holeKind : String) (hole : Rule whole)
    (hkind : isPlain kind := by exact Eq.refl true)
    (hholeKind : isPlain holeKind := by exact Eq.refl true) : Rule whole :=
  let rule := all
    [mark "`",
      many (oneOf
        [fragment templateLength, escapeSequence,
          node holeKind (all [tightMark "$\x7b", hole, mark "\x7d"]) hholeKind]),
      tightMark "`"]
  node kind rule hkind

def regex : Rule whole := do
  guard (← sees "/")
  match patternLength false ((← rest).drop 1) with
  | some (length + 1) =>
    let flags : Rule whole := do
      let count := runLength (fun char => 'a' ≤ char && char ≤ 'z') (← after)
      guard (0 < count)
      tight "regex_flags" count
    node "regex" <| all
      [mark "/", field "pattern" (tight "regex_pattern" (length + 1)), tightMark "/",
        field "flags" (maybe flags)]
  | _ => fail

end StoryKnobs.Grammar.Rule

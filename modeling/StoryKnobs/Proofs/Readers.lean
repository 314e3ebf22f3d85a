import Mathlib
import StoryKnobs.Json.Document

/-!
# What readers read

A reader reads characters as a value if it gives the value and stops behind them, whatever follows;
the reader of a number needs something behind the number that does not go on with it. So what is read
by readers one after another is read by the reader that they make.
-/

namespace StoryKnobs.Json

namespace Reader

variable {α β : Type} {reader : Reader α} {next : α → Reader β} {front back chars gap : List Char}
  {char : Char} {value : α} {result : β} {follow : List Char → Prop}

/-- From any place in a text, `reader` passes over `chars` and gives `value`, provided that `follow`
holds of what follows. -/
def ReadsBefore (follow : List Char → Prop) (reader : Reader α) (chars : List Char) (value : α) :
    Prop :=
  ∀ index rest, follow rest → ∃ last, reader ⟨index, chars ++ rest⟩ = .ok (value, ⟨last, rest⟩)

abbrev Reads (reader : Reader α) (chars : List Char) (value : α) : Prop :=
  ReadsBefore (fun _ => True) reader chars value

def IsGap (gap : List Char) : Prop := ∀ char ∈ gap, isBlank char = true

theorem isGap_nil : IsGap [] := nofun

def isNumberPart (char : Char) : Bool := isDigit char || char == '.' || char == 'e' || char == 'E'

def IsEnd (rest : List Char) : Prop := ∀ char ∈ rest.head?, isNumberPart char = false

theorem isEnd_cons (hchar : isNumberPart char = false) : IsEnd (char :: chars) := by
  rintro _ ⟨⟩
  exact hchar

theorem isNumberPart_of_isBlank (hblank : isBlank char = true) : isNumberPart char = false := by
  simp only [isBlank, Bool.or_eq_true, beq_iff_eq] at hblank
  obtain ((rfl | rfl) | rfl) | rfl := hblank <;> decide

theorem isEnd_of_isGap (hgap : IsGap gap) : IsEnd gap := by
  cases gap with
  | nil => exact nofun
  | cons blank gap => exact isEnd_cons (isNumberPart_of_isBlank (hgap blank List.mem_cons_self))

theorem isEnd_append (hgap : IsGap gap) (hchar : isNumberPart char = false) :
    IsEnd (gap ++ char :: chars) := by
  cases gap with
  | nil => exact isEnd_cons hchar
  | cons blank gap => exact isEnd_cons (isNumberPart_of_isBlank (hgap blank List.mem_cons_self))

theorem bind_eq_of_ok {cursor middle : Cursor} (hreader : reader cursor = .ok (value, middle)) :
    (reader >>= next) cursor = next value middle := by
  simp only [Bind.bind, StateT.bind, hreader, Except.bind]

theorem reads_pure (value : α) : ReadsBefore follow (pure value) [] value :=
  fun index _ _ => ⟨index, rfl⟩

theorem Reads.before (hreader : Reads reader chars value) : ReadsBefore follow reader chars value :=
  fun index rest _ => hreader index rest trivial

theorem ReadsBefore.bind {before : List Char → Prop} (hreader : ReadsBefore before reader front value)
    (hnext : ReadsBefore follow (next value) back result)
    (hbefore : ∀ rest, follow rest → before (back ++ rest)) :
    ReadsBefore follow (reader >>= next) (front ++ back) result := by
  intro index rest hrest
  obtain ⟨middle, hmiddle⟩ := hreader index (back ++ rest) (hbefore rest hrest)
  obtain ⟨last, hlast⟩ := hnext middle rest hrest
  refine ⟨last, ?_⟩
  rw [List.append_assoc, bind_eq_of_ok hmiddle, hlast]

theorem Reads.bind (hreader : Reads reader front value)
    (hnext : ReadsBefore follow (next value) back result) :
    ReadsBefore follow (reader >>= next) (front ++ back) result :=
  ReadsBefore.bind hreader hnext fun _ _ => trivial

theorem ReadsBefore.map {f : α → β} (hreader : ReadsBefore follow reader chars value) :
    ReadsBefore follow (do return f (← reader)) chars (f value) := by
  have hbind : ReadsBefore follow (reader >>= fun value => pure (f value)) (chars ++ []) (f value) :=
    hreader.bind (reads_pure _) fun _ hrest => hrest
  rwa [List.append_nil] at hbind

theorem reads_advance (char : Char) : Reads advance [char] () := fun _ _ _ => ⟨_, rfl⟩

theorem ReadsBefore.advance {reader : Reader α} (hreader : ReadsBefore follow reader chars value) :
    ReadsBefore follow (do Reader.advance; reader) (char :: chars) value :=
  (reads_advance char).bind hreader

/-- A reader may use the number of characters that are left, which is not less than those read. -/
theorem ReadsBefore.withLength {reader : Nat → Reader α}
    (hreader : ∀ count, chars.length < count → ReadsBefore follow (reader count) chars value) :
    ReadsBefore follow (do reader ((← get).rest.length + 1)) chars value := by
  intro index rest
  exact hreader _ (by rw [List.length_append]; omega) index rest

theorem ReadsBefore.ofPeek {next : Option Char → Reader β}
    (hnext : ReadsBefore follow (next (some char)) (char :: chars) result) :
    ReadsBefore follow (peek? >>= next) (char :: chars) result := hnext

theorem passBlanks_append (hgap : IsGap gap) (hchar : isBlank char = false) (index : Nat) :
    passBlanks index (gap ++ char :: chars) = ⟨index + gap.length, char :: chars⟩ := by
  induction gap generalizing index with
  | nil => simp [passBlanks, hchar]
  | cons blank gap ih =>
      rw [List.cons_append, passBlanks, if_pos (hgap blank List.mem_cons_self),
        ih fun char hmem => hgap char (List.mem_cons_of_mem _ hmem), List.length_cons,
        Nat.add_assoc, Nat.add_comm 1]

/-- Blanks are passed over in front of a token. -/
theorem ReadsBefore.ofToken {next : Option Char → Reader β} (hgap : IsGap gap)
    (hchar : isBlank char = false)
    (hnext : ReadsBefore follow (next (some char)) (char :: chars) result) :
    ReadsBefore follow (peekToken? >>= next) (gap ++ char :: chars) result := by
  intro index rest hrest
  obtain ⟨last, hlast⟩ := hnext (index + gap.length) rest hrest
  refine ⟨last, ?_⟩
  have hpeek : peekToken? ⟨index, gap ++ char :: (chars ++ rest)⟩ =
      .ok (some char, ⟨index + gap.length, char :: (chars ++ rest)⟩) := by
    change Except.ok ((passBlanks index _).rest.head?, passBlanks index _) = _
    rw [passBlanks_append hgap hchar]
    rfl
  rw [List.append_assoc, List.cons_append, bind_eq_of_ok hpeek]
  exact hlast

theorem ReadsBefore.ofHead {next : Option Char → Reader β} (hchar : isBlank char = false)
    (hnext : ReadsBefore follow (next (some char)) (char :: chars) result) :
    ReadsBefore follow (peekToken? >>= next) (char :: chars) result :=
  ReadsBefore.ofToken isGap_nil hchar hnext

theorem reads_keyword (chars : List Char) : Reads (keyword chars) chars () := by
  induction chars with
  | nil => exact reads_pure ()
  | cons char chars ih =>
      rw [keyword]
      refine ReadsBefore.ofPeek ?_
      dsimp only
      rw [if_pos (by simp)]
      exact ih.advance

theorem reads_colon (hgap : IsGap gap) : Reads colon (gap ++ [':']) () := by
  rw [colon]
  exact ReadsBefore.ofToken hgap rfl (reads_advance ':')

theorem run_of_reads {text : String} (hfollow : ∀ gap, IsGap gap → follow gap) (hgap : IsGap gap)
    (hreads : ReadsBefore follow reader chars value) (htext : text.toList = chars ++ gap) :
    reader.run text = .ok value := by
  obtain ⟨last, hlast⟩ := hreads 0 gap (hfollow gap hgap)
  have hending (index : Nat) : ∃ last, ending ⟨index, gap⟩ = .ok ((), last) := by
    clear hlast hfollow htext
    induction gap generalizing index with
    | nil => exact ⟨_, rfl⟩
    | cons blank gap ih =>
        obtain ⟨last, hlast⟩ := ih (fun char hmem => hgap char (List.mem_cons_of_mem _ hmem))
          (index + 1)
        refine ⟨last, ?_⟩
        rw [← hlast]
        have hblank := hgap blank List.mem_cons_self
        simp only [ending, peekToken?, blanks, modify, modifyGet, MonadStateOf.modifyGet,
          StateT.modifyGet, bind, StateT.bind, passBlanks, hblank, if_true]
  obtain ⟨final, hfinal⟩ := hending last
  rw [run, htext, bind_eq_of_ok hlast, bind_eq_of_ok hfinal]
  rfl

end Reader

end StoryKnobs.Json

import Mathlib.Data.String.Basic
import StoryKnobs.Text.Slice

/-!
# Slices and lines

A range of bytes has a slice exactly when both of its ends fall between two characters: then the
text is what stands before the slice, the slice, and what follows it.
-/

namespace StoryKnobs.Text

open String (utf8Len)

theorem exists_utf8Len_cons_eq (char : Char) (chars : List Char) :
    ∃ count, utf8Len (char :: chars) = count + 1 := by
  have hpos := char.utf8Size_pos
  refine ⟨utf8Len (char :: chars) - 1, ?_⟩
  rw [String.utf8Len_cons]
  omega

theorem dropBytes_append (before rest : List Char) :
    dropBytes (before ++ rest) (utf8Len before) = some rest := by
  induction before with
  | nil => simp [dropBytes]
  | cons char before ih =>
      obtain ⟨count, hcount⟩ := exists_utf8Len_cons_eq char before
      rw [List.cons_append, hcount, dropBytes, ← hcount, String.utf8Len_cons,
        if_pos (Nat.le_add_left _ _), Nat.add_sub_cancel, ih]

theorem takeBytes_append (slice rest : List Char) :
    takeBytes (slice ++ rest) (utf8Len slice) = some slice := by
  induction slice with
  | nil => simp [takeBytes]
  | cons char slice ih =>
      obtain ⟨count, hcount⟩ := exists_utf8Len_cons_eq char slice
      rw [List.cons_append, hcount, takeBytes, ← hcount, String.utf8Len_cons,
        if_pos (Nat.le_add_left _ _), Nat.add_sub_cancel, ih, Option.map_some]

/-- A range between characters has the slice that stands there. -/
theorem slice_of_toList_eq {text : String} {before slice after : List Char}
    (htext : text.toList = before ++ slice ++ after) :
    Text.slice text (utf8Len before) (utf8Len before + utf8Len slice) =
      some (String.ofList slice) := by
  rw [Text.slice, sliceChars, if_pos (Nat.le_add_right _ _), htext, List.append_assoc,
    dropBytes_append, Option.bind_some, Nat.add_sub_cancel_left, takeBytes_append,
    Option.map_some]

theorem eq_append_of_takeBytes_eq_some {chars slice : List Char} {count : Nat}
    (htake : takeBytes chars count = some slice) :
    utf8Len slice = count ∧ ∃ rest, chars = slice ++ rest := by
  induction chars generalizing count slice with
  | nil =>
      cases count with
      | zero => simp_all [takeBytes]
      | succ count => simp [takeBytes] at htake
  | cons char chars ih =>
      cases count with
      | zero => simp_all [takeBytes]
      | succ count =>
          rw [takeBytes] at htake
          split at htake
          next hsize =>
            obtain ⟨inner, hinner, rfl⟩ := Option.map_eq_some_iff.mp htake
            obtain ⟨hlength, rest, hrest⟩ := ih hinner
            refine ⟨?_, rest, ?_⟩
            · rw [String.utf8Len_cons, hlength]
              omega
            · rw [hrest, List.cons_append]
          next => simp at htake

theorem eq_append_of_dropBytes_eq_some {chars rest : List Char} {count : Nat}
    (hdrop : dropBytes chars count = some rest) :
    ∃ before, chars = before ++ rest ∧ utf8Len before = count := by
  induction chars generalizing count with
  | nil =>
      cases count with
      | zero => exact ⟨[], by simpa [dropBytes] using hdrop⟩
      | succ count => simp [dropBytes] at hdrop
  | cons char chars ih =>
      cases count with
      | zero => exact ⟨[], by simpa [dropBytes] using hdrop⟩
      | succ count =>
          rw [dropBytes] at hdrop
          split_ifs at hdrop with hsize
          obtain ⟨before, rfl, hlength⟩ := ih hdrop
          refine ⟨char :: before, rfl, ?_⟩
          rw [String.utf8Len_cons, hlength]
          omega

/-- A slice is what stands between two offsets that cut no character. -/
theorem slice_eq_some_iff {text part : String} {start stop : Nat} :
    Text.slice text start stop = some part ↔ ∃ before after,
      text.toList = before ++ part.toList ++ after ∧ utf8Len before = start ∧
        start + utf8Len part.toList = stop := by
  constructor
  · intro hslice
    obtain ⟨chars, hchars, rfl⟩ := Option.map_eq_some_iff.mp hslice
    rw [sliceChars] at hchars
    split_ifs at hchars with hle
    obtain ⟨rest, hdrop, htake⟩ := Option.bind_eq_some_iff.mp hchars
    obtain ⟨before, htext, hbefore⟩ := eq_append_of_dropBytes_eq_some hdrop
    obtain ⟨hlength, after, rfl⟩ := eq_append_of_takeBytes_eq_some htake
    refine ⟨before, after, ?_, hbefore, ?_⟩
    · rw [htext, String.toList_ofList, List.append_assoc]
    · rw [String.toList_ofList, hlength, Nat.add_sub_cancel' hle]
  · rintro ⟨before, after, htext, rfl, rfl⟩
    rw [slice_of_toList_eq htext, String.ofList_toList]

theorem isInfix_of_slice {text part : String} {start stop : Nat}
    (hslice : Text.slice text start stop = some part) : part.toList <:+: text.toList := by
  obtain ⟨before, after, htext, -, -⟩ := slice_eq_some_iff.mp hslice
  exact ⟨before, after, htext.symm⟩

theorem breaksBefore_append (before rest : List Char) :
    breaksBefore (before ++ rest) (utf8Len before) = before.count '\n' := by
  induction before with
  | nil => cases rest <;> simp [breaksBefore]
  | cons char before ih =>
      obtain ⟨count, hcount⟩ := exists_utf8Len_cons_eq char before
      rw [List.cons_append, hcount, breaksBefore, ← hcount, String.utf8Len_cons,
        Nat.add_sub_cancel, ih, List.count_cons, Nat.add_comm]
      simp only [beq_iff_eq]

/-- The line of an offset between two characters counts the line breaks before it. -/
theorem lineAt_of_slice_eq_some {text before : String} {offset : Nat}
    (hslice : Text.slice text 0 offset = some before) :
    lineAt text offset = 1 + before.toList.count '\n' := by
  rw [Text.slice, Option.map_eq_some_iff] at hslice
  obtain ⟨slice, hslice, rfl⟩ := hslice
  rw [sliceChars, if_pos (Nat.zero_le _)] at hslice
  simp only [dropBytes, Option.bind_some, Nat.sub_zero] at hslice
  obtain ⟨hlength, rest, hrest⟩ := eq_append_of_takeBytes_eq_some hslice
  rw [lineAt, hrest, ← hlength, breaksBefore_append, String.toList_ofList, Nat.add_comm]

end StoryKnobs.Text

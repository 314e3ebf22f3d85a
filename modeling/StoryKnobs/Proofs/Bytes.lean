import StoryKnobs.Proofs.Slices
import StoryKnobs.Text.Bytes

/-!
# Careful cuts

A cut gives the characters that stand between its ends, and it fails unless there are such. So a
careful cut never fails, and what it gives is the slice of the text by its characters.
-/

namespace StoryKnobs.Text

variable {text part : String} {start stop : Nat}

/-! ### Cuts -/

theorem extract_append (before part after : String) :
    (before ++ part ++ after).toByteArray.extract before.utf8ByteSize
      (before.utf8ByteSize + part.utf8ByteSize) = part.toByteArray := by
  have hstart : before.utf8ByteSize = before.toByteArray.size := String.size_toByteArray.symm
  have hstop : before.utf8ByteSize + part.utf8ByteSize = (before ++ part).toByteArray.size := by
    rw [String.size_toByteArray, String.utf8ByteSize_append]
  rw [String.toByteArray_append, hstop, ByteArray.extract_append_size_left,
    String.toByteArray_append, ByteArray.size_append]
  exact ByteArray.extract_append_eq_right hstart rfl

theorem isValid_utf8ByteSize (before after : String) :
    String.Pos.Raw.IsValid (before ++ after) ⟨before.utf8ByteSize⟩ :=
  String.Pos.Raw.isValid_iff_exists_append.mpr ⟨before, after, rfl, rfl⟩

/-- Two offsets that cut no character, one behind the other, cut a text in three. -/
theorem exists_append_of_isValid (hstart : String.Pos.Raw.IsValid text ⟨start⟩)
    (hstop : String.Pos.Raw.IsValid text ⟨stop⟩) (hle : start ≤ stop) :
    ∃ before part after : String, text = before ++ part ++ after ∧ before.utf8ByteSize = start ∧
      start + part.utf8ByteSize = stop := by
  obtain ⟨front, after, rfl, hfront⟩ := String.Pos.Raw.isValid_iff_exists_append.mp hstop
  obtain rfl : stop = front.utf8ByteSize := congrArg String.Pos.Raw.byteIdx hfront
  rcases String.Pos.Raw.isValid_append.mp hstart with hvalid | ⟨hge, -⟩
  · obtain ⟨before, part, rfl, hbefore⟩ := String.Pos.Raw.isValid_iff_exists_append.mp hvalid
    obtain rfl : start = before.utf8ByteSize := congrArg String.Pos.Raw.byteIdx hbefore
    exact ⟨before, part, after, rfl, rfl, String.utf8ByteSize_append.symm⟩
  · have hsame : front.utf8ByteSize = start := le_antisymm (String.Pos.Raw.le_iff.mp hge) hle
    exact ⟨front, "", after, by rw [String.append_empty], hsame, hsame.symm⟩

theorem cut_eq_ok_iff : cut text start stop = .ok part ↔ ∃ before after : String,
    text = before ++ part ++ after ∧ before.utf8ByteSize = start ∧
      start + part.utf8ByteSize = stop := by
  constructor
  · intro hcut
    rw [cut] at hcut
    split_ifs at hcut with hrange
    obtain ⟨hstart, hstop, hle⟩ := hrange
    obtain ⟨before, middle, after, rfl, rfl, rfl⟩ := exists_append_of_isValid hstart hstop hle
    have hpart : part = middle := by
      rw [← String.toByteArray_inj, ← Except.ok.inj hcut, String.toByteArray_extract]
      exact extract_append before middle after
    exact ⟨before, after, by rw [hpart], rfl, by rw [hpart]⟩
  · rintro ⟨before, after, rfl, rfl, rfl⟩
    have hstart : String.Pos.Raw.IsValid (before ++ part ++ after) ⟨before.utf8ByteSize⟩ := by
      rw [String.append_assoc]
      exact isValid_utf8ByteSize before (part ++ after)
    have hstop : String.Pos.Raw.IsValid (before ++ part ++ after)
        ⟨before.utf8ByteSize + part.utf8ByteSize⟩ := by
      rw [← String.utf8ByteSize_append]
      exact isValid_utf8ByteSize (before ++ part) after
    rw [cut, dif_pos ⟨hstart, hstop, Nat.le_add_right _ _⟩, Except.ok.injEq,
      ← String.toByteArray_inj, String.toByteArray_extract]
    exact extract_append before part after

/-- A cut gives the slice by characters, and it fails where there is none. -/
theorem cut_eq_ok_iff_slice : cut text start stop = .ok part ↔
    Text.slice text start stop = some part := by
  rw [cut_eq_ok_iff, slice_eq_some_iff]
  constructor
  · rintro ⟨before, after, rfl, rfl, rfl⟩
    refine ⟨before.toList, after.toList, ?_, ?_, ?_⟩
    · rw [String.toList_append, String.toList_append]
    · rw [String.utf8Len_toList]
    · rw [String.utf8Len_toList]
  · rintro ⟨before, after, htext, rfl, rfl⟩
    refine ⟨String.ofList before, String.ofList after, ?_, ?_, ?_⟩
    · rw [← String.toList_inj, htext]
      simp
    · rw [String.utf8ByteSize_ofList]
    · rw [String.utf8Len_toList]

/-! ### Careful cuts -/

theorem exists_cut_eq_ok_iff : (∃ part, cut text start stop = .ok part) ↔
    (start ≤ stop && isBoundary text start && isBoundary text stop) = true := by
  simp only [isBoundary, Bool.and_eq_true, decide_eq_true_eq, String.Pos.Raw.isValid_eq_true_iff]
  rw [cut]
  split_ifs with hrange
  · obtain ⟨hstart, hstop, hle⟩ := hrange
    exact iff_of_true ⟨_, rfl⟩ ⟨⟨hle, hstart⟩, hstop⟩
  · refine iff_of_false nofun ?_
    rintro ⟨⟨hle, hstart⟩, hstop⟩
    exact hrange ⟨hstart, hstop, hle⟩

example : cut "é" 1 2 = .error ⟨1, 2⟩ ∧ cut "'" 1 0 = .error ⟨1, 0⟩ := by decide +kernel

/-- **A careful cut never fails**, and it gives the slice of the text by its characters. -/
theorem cut?_eq_ok (text : String) (start stop : Nat) :
    cut? text start stop = .ok (Text.slice text start stop) := by
  rw [cut?]
  split_ifs with hguard
  · obtain ⟨part, hcut⟩ := exists_cut_eq_ok_iff.mpr hguard
    rw [hcut, cut_eq_ok_iff_slice.mp hcut]
    rfl
  · cases hslice : Text.slice text start stop with
    | none => rfl
    | some part =>
        exact absurd (exists_cut_eq_ok_iff.mp ⟨part, cut_eq_ok_iff_slice.mpr hslice⟩) hguard

end StoryKnobs.Text

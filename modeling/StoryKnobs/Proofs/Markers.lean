import Mathlib.Data.List.Forall2
import StoryKnobs.Input
import StoryKnobs.Proofs.Search
import StoryKnobs.Proofs.Slices

/-!
# Markers and what they lead to

Whether a decorator is a marker depends on its subtree alone, wherever in the tree it stands. Each
marker of a tree leads either to an input or to a note that it was skipped, never to both and never
to neither, and both lists keep the order of the markers.
-/

namespace StoryKnobs

open Syntax

namespace Source

variable {source : Source}

def treeText (source : Source) (tree : Tree) : String := source.textOf (Node.root tree)

theorem treeText_tree (node : Node) : source.treeText node.tree = source.textOf node := rfl

/-- A decorator is a marker if an identifier anywhere in it is spelled `Input`. -/
def Marks (source : Source) (tree : Tree) : Prop :=
  tree.kind = "decorator" ∧ ∃ part ∈ tree.preorder,
    (part.kind = "identifier" ∨ part.kind = "property_identifier") ∧
      source.treeText part = "Input"

instance (source : Source) : DecidablePred source.Marks := fun tree =>
  inferInstanceAs (Decidable (tree.kind = "decorator" ∧ _))

theorem isMarker_iff {decorator : Node} (hkind : decorator.kind = "decorator") :
    source.isMarker decorator = true ↔ source.Marks decorator.tree := by
  rw [Marks, and_iff_right (show decorator.tree.kind = "decorator" from hkind),
    ← exists_mem_listing_iff decorator, isMarker, findAll_eq_filter, List.any_eq_true]
  constructor
  · rintro ⟨node, hnode, htext⟩
    obtain ⟨hmem, hidentifier⟩ := List.mem_filter.mp hnode
    refine ⟨node, hmem, ?_, by simpa [markerName, treeText_tree] using htext⟩
    simpa [isIdentifier, Node.kind] using hidentifier
  · rintro ⟨node, hmem, hidentifier, htext⟩
    refine ⟨node, List.mem_filter.mpr ⟨hmem, ?_⟩, ?_⟩
    · simpa [isIdentifier, Node.kind] using hidentifier
    · simpa [markerName, treeText_tree] using htext

/-- The markers are the marking nodes of the tree, listed in pre-order. -/
theorem markers_eq_filter (source : Source) :
    source.markers = source.root.listing.filter fun node => source.Marks node.tree := by
  rw [markers, Node.findKind, findAll_eq_filter, List.filter_filter]
  refine List.filter_congr fun node _ => ?_
  by_cases hkind : node.kind = "decorator"
  · have hmarker : source.isMarker node = true ↔ source.Marks node.tree := isMarker_iff hkind
    by_cases hmarks : source.Marks node.tree
    · simp [hkind, hmarks, hmarker.mpr hmarks]
    · simp [hmarks, mt hmarker.mp hmarks]
  · have hmarks : ¬ source.Marks node.tree := fun hmarks => hkind hmarks.1
    simp [hkind, hmarks]

theorem mem_listing_of_mem_markers {decorator : Node} (hdecorator : decorator ∈ source.markers) :
    decorator ∈ source.root.listing := by
  rw [markers_eq_filter] at hdecorator
  exact (List.mem_filter.mp hdecorator).1

theorem nodup_markers (source : Source) : source.markers.Nodup := by
  rw [markers_eq_filter]
  exact (nodup_listingOf _ _).filter _

/-! ### Inputs and notes -/

/-- A decorator leads nowhere if it belongs to no member, or to one without a name. -/
def Stray (decorator : Node) : Prop :=
  ∀ member, memberOf? decorator = some member → member.childByField "name" = none

theorem stray_iff {decorator : Node} :
    Stray decorator ↔ memberOf? decorator = none ∨
      ∃ member, memberOf? decorator = some member ∧ member.childByField "name" = none := by
  cases hmember : memberOf? decorator with
  | none => simp [Stray, hmember]
  | some member => simp [Stray, hmember]

theorem decorated?_eq_none_iff {decorator : Node} :
    source.decorated? decorator = none ↔ Stray decorator := by
  rw [decorated?, Option.bind_eq_none_iff, Stray]
  refine forall₂_congr fun member _ => ?_
  cases hname : member.childByField "name" with
  | none => simp [declarationOf?, hname]
  | some name => simp [declarationOf?, hname]

instance : DecidablePred Stray := fun decorator =>
  decidable_of_iff ((memberOf? decorator).all fun member =>
    (member.childByField "name").isNone) (by
      cases hmember : memberOf? decorator with
      | none => simp [Stray, hmember]
      | some member => simp [Stray, hmember])

end Source

namespace Finding

def skip? : Finding → Option (Nat × String)
  | found _ => none
  | skipped line decorator => some (line, decorator)

end Finding

def Source.skips (source : Source) : List (Nat × String) :=
  source.findings.filterMap Finding.skip?

/-- Two partial functions on a list that are defined for the same members give lists that match. -/
theorem forall₂_filterMap {α β γ : Type} {key : α → Option β} {value : α → Option γ}
    {relation : β → γ → Prop} (members : List α)
    (hmembers : ∀ member ∈ members, Option.Rel relation (key member) (value member)) :
    List.Forall₂ relation (members.filterMap key) (members.filterMap value) := by
  induction members with
  | nil => exact List.Forall₂.nil
  | cons member members ih =>
      obtain ⟨hmember, hothers⟩ := List.forall_mem_cons.mp hmembers
      have ih := ih hothers
      cases hkey : key member with
      | none =>
          rw [hkey] at hmember
          have hvalue : value member = none := by
            generalize value member = result at hmember
            cases hmember
            rfl
          rw [List.filterMap_cons_none hkey, List.filterMap_cons_none hvalue]
          exact ih
      | some first =>
          rw [hkey] at hmember
          obtain ⟨second, hvalue, hrelation⟩ : ∃ second, value member = some second ∧
              relation first second := by
            generalize value member = result at hmember
            cases hmember with
            | some hrelation => exact ⟨_, rfl, hrelation⟩
          rw [List.filterMap_cons_some hkey, List.filterMap_cons_some hvalue]
          exact List.Forall₂.cons hrelation ih

/-- A partial function kept where it is defined, beside the members on which it is. -/
theorem forall₂_filter_filterMap {α β : Type} {keep : α → Bool} {value : α → Option β}
    {relation : α → β → Prop} (members : List α)
    (hkeep : ∀ member ∈ members, keep member = true →
      ∃ result, value member = some result ∧ relation member result)
    (hdrop : ∀ member ∈ members, keep member = false → value member = none) :
    List.Forall₂ relation (members.filter keep) (members.filterMap value) := by
  rw [← List.filterMap_eq_filter]
  refine forall₂_filterMap members fun member hmember => ?_
  cases hcase : keep member with
  | true =>
      obtain ⟨result, hresult, hrelation⟩ := hkeep member hmember hcase
      rw [Option.guard, if_pos hcase, hresult]
      exact Option.Rel.some hrelation
  | false =>
      rw [Option.guard, if_neg (by simp [hcase]), hdrop member hmember hcase]
      exact Option.Rel.none

namespace Source

variable {source : Source}

theorem findingOf_of_stray {decorator : Node} (hstray : Stray decorator) :
    source.findingOf decorator =
      .skipped (source.lineOf decorator) (source.textOf decorator) := by
  rw [findingOf, decorated?_eq_none_iff.mpr hstray]

theorem exists_findingOf_eq_found (source : Source) {decorator : Node}
    (hstray : ¬ Stray decorator) :
    ∃ input, source.findingOf decorator = .found input := by
  cases hdecorated : source.decorated? decorator with
  | none => exact absurd (decorated?_eq_none_iff.mp hdecorated) hstray
  | some declaration => exact ⟨_, by rw [findingOf, hdecorated]⟩

/-- **No input is lost and none invented.** The inputs and the notes share out the markers, each of
which stands once in the list: those that are not stray give one input each and the stray ones one
note each, in their order. -/
theorem inputs_and_skips_share_markers (source : Source) :
    let marks := source.root.listing.filter fun node => source.Marks node.tree
    marks.Nodup ∧
    List.Forall₂ (fun decorator input => source.findingOf decorator = .found input)
      (marks.filter fun decorator => ¬ Stray decorator) source.inputs ∧
    List.Forall₂ (fun decorator note =>
        note = (source.lineOf decorator, source.textOf decorator) ∧
        ∀ before, Text.slice source.text 0 decorator.span.start = some before →
          note.1 = 1 + before.toList.count '\n')
      (marks.filter fun decorator => Stray decorator) source.skips ∧
    (∀ decorator, Stray decorator ↔ memberOf? decorator = none ∨
      ∃ member, memberOf? decorator = some member ∧ member.childByField "name" = none) ∧
    source.inputs.length + source.skips.length = marks.length := by
  intro marks
  have hmarks : source.markers = marks := markers_eq_filter source
  have hinputs : List.Forall₂ (fun decorator input => source.findingOf decorator = .found input)
      (marks.filter fun decorator => ¬ Stray decorator) source.inputs := by
    rw [inputs, findings, hmarks, List.filterMap_map]
    refine forall₂_filter_filterMap marks ?_ ?_
    · intro decorator _ hkeep
      obtain ⟨input, hinput⟩ := exists_findingOf_eq_found source (of_decide_eq_true hkeep)
      exact ⟨input, by rw [Function.comp_apply, hinput, Finding.input?], hinput⟩
    · intro decorator _ hdrop
      rw [Function.comp_apply, findingOf_of_stray (by simpa using hdrop), Finding.input?]
  have hskips : List.Forall₂ (fun decorator note =>
        note = (source.lineOf decorator, source.textOf decorator) ∧
        ∀ before, Text.slice source.text 0 decorator.span.start = some before →
          note.1 = 1 + before.toList.count '\n')
      (marks.filter fun decorator => Stray decorator) source.skips := by
    rw [skips, findings, hmarks, List.filterMap_map]
    refine forall₂_filter_filterMap marks ?_ ?_
    · intro decorator _ hkeep
      refine ⟨(source.lineOf decorator, source.textOf decorator), ?_, rfl, ?_⟩
      · rw [Function.comp_apply, findingOf_of_stray (of_decide_eq_true hkeep), Finding.skip?]
      · intro before hbefore
        exact Text.lineAt_of_slice_eq_some hbefore
    · intro decorator _ hdrop
      obtain ⟨input, hinput⟩ := exists_findingOf_eq_found source (of_decide_eq_false hdrop)
      rw [Function.comp_apply, hinput, Finding.skip?]
  refine ⟨hmarks ▸ nodup_markers source, hinputs, hskips, fun _ => stray_iff, ?_⟩
  rw [← hinputs.length_eq, ← hskips.length_eq, Nat.add_comm]
  have hsplit := List.length_eq_length_filter_add (l := marks) fun decorator =>
    decide (Stray decorator)
  rw [hsplit]
  congr 3
  funext decorator
  by_cases hstray : Stray decorator <;> simp [hstray]

end Source

end StoryKnobs

import StoryKnobs.Proofs.Declarations

/-!
# Aliases and the keyword `string`

A node of kind `string` is either a literal between quotes or the token of the keyword `string`, and
where a text breaks off, the second quote or the whole token may be one that the text lacks. The
name of an input should come from the first literal in its decorator. It does so unless a node of
the same kind that is no literal stands before every literal: after the keyword the input is named
`trin`, and after a single quote it loses the last letter of what follows.
-/

namespace StoryKnobs

open Syntax

open Grammar (byteCount Covers SpelledTree SpellsString)

/-! ### Texts of spelled trees -/

theorem Grammar.byteCount_eq_utf8Len (chars : List Char) :
    byteCount chars = String.utf8Len chars := by
  induction chars with
  | nil => rfl
  | cons char chars ih => rw [byteCount, ih, String.utf8Len_cons, Nat.add_comm]

namespace Source

variable {source : Source}

/-- Every node of kind `string` is a keyword or a literal of the text, or has been put into a text
that lacks one of its tokens. -/
def IsSpelled (source : Source) : Prop := SpelledTree source.text.toList source.tree

theorem isSpelled_parse (path : Path) (text : String) : (parse path text).IsSpelled :=
  Grammar.parse_spelled text _

theorem slice_of_covers {span : Span} {slice : List Char}
    (hcovers : Covers source.text.toList span slice) :
    (Text.slice source.text span.start span.stop).getD "" = String.ofList slice := by
  obtain ⟨rest, ⟨before, htext, hstart⟩, hstop⟩ := hcovers
  have hparts : source.text.toList = before ++ slice ++ rest := by
    rw [htext, List.append_assoc]
  have hslice := Text.slice_of_toList_eq hparts
  rw [← Grammar.byteCount_eq_utf8Len, ← Grammar.byteCount_eq_utf8Len, ← hstart, ← hstop] at hslice
  rw [hslice, Option.getD_some]

theorem treeText_of_covers {tree : Tree} {slice : List Char}
    (hcovers : Covers source.text.toList tree.span slice) :
    source.treeText tree = String.ofList slice := slice_of_covers hcovers

/-! ### A text without its second quote -/

/-- A text without its last byte, if that byte is a character and not the only one. -/
def shortened? (text : String) : Option String :=
  match text.toList.getLast? with
  | some last =>
    if last.utf8Size = 1 ∧ text.toList.dropLast ≠ [] then some (.ofList text.toList.dropLast)
    else none
  | none => none

theorem utf8Size_of_mem_quotes {quote : Char} (hquote : quote ∈ Grammar.quotes) :
    quote.utf8Size = 1 := by
  rcases Grammar.mem_quotes_iff.mp hquote with rfl | rfl
  · rfl
  · rfl

/-- No slice ends inside the last character of a text. -/
theorem slice_eq_none_of_getLast {text : String} {chars : List Char} {last : Char} {start : Nat}
    (htext : text.toList = chars ++ [last]) (hlast : 1 < last.utf8Size) :
    Text.slice text start (text.utf8ByteSize - 1) = none := by
  rw [Option.eq_none_iff_forall_ne_some]
  intro part hslice
  obtain ⟨before, after, hparts, hstart, hstop⟩ := Text.slice_eq_some_iff.mp hslice
  have hsize : text.utf8ByteSize = String.utf8Len chars + last.utf8Size := by
    rw [← String.utf8Len_toList, htext, String.utf8Len_append, String.utf8Len_cons,
      String.utf8Len_nil, Nat.zero_add]
  have hcount := congrArg String.utf8Len (htext.symm.trans hparts)
  rw [String.utf8Len_append, String.utf8Len_append, String.utf8Len_append, String.utf8Len_cons,
    String.utf8Len_nil] at hcount
  rcases List.eq_nil_or_concat after with rfl | ⟨init, char, rfl⟩
  · rw [String.utf8Len_nil] at hcount
    omega
  · rw [List.concat_eq_append, ← List.append_assoc] at hparts
    obtain ⟨-, hchar⟩ := List.append_inj' (htext.symm.trans hparts) rfl
    obtain rfl := List.head_eq_of_cons_eq hchar
    rw [List.concat_eq_append, String.utf8Len_append, String.utf8Len_cons, String.utf8Len_nil]
      at hcount
    omega

/-- Without a second quote, a text loses its last byte instead. -/
theorem unquote?_of_quote {quote : Char} (hquote : quote ∈ Grammar.quotes) (body : String) :
    unquote? (String.ofList (quote :: body.toList)) = shortened? body := by
  have hsize := utf8Size_of_mem_quotes hquote
  have hbytes : (String.ofList (quote :: body.toList)).utf8ByteSize =
      String.utf8Len body.toList + 1 := by
    rw [← String.utf8Len_toList, String.toList_ofList, String.utf8Len_cons, hsize]
  rcases List.eq_nil_or_concat body.toList with hnil | ⟨chars, last, hchars⟩
  · rw [unquote?, hbytes, hnil, shortened?, hnil]
    rfl
  · rw [List.concat_eq_append] at hchars
    rw [shortened?, hchars, List.getLast?_concat, List.dropLast_concat]
    dsimp only
    by_cases hlast : last.utf8Size = 1
    · have hparts : (String.ofList (quote :: (chars ++ [last]))).toList =
          [quote] ++ chars ++ [last] := by
        rw [String.toList_ofList, List.singleton_append, List.cons_append]
      have hslice := Text.slice_of_toList_eq hparts
      rw [String.utf8Len_cons, String.utf8Len_nil, hsize, Nat.zero_add] at hslice
      have hstop : (String.ofList (quote :: (chars ++ [last]))).utf8ByteSize - 1 =
          1 + String.utf8Len chars := by
        rw [← hchars, hbytes, hchars, String.utf8Len_append, String.utf8Len_cons,
          String.utf8Len_nil, hlast]
        omega
      rw [unquote?, hstop, hslice]
      cases chars with
      | nil => simp
      | cons char chars => simp [hlast]
    · have hpos := last.utf8Size_pos
      have htext : (String.ofList (quote :: (chars ++ [last]))).toList = (quote :: chars) ++ [last] :=
        String.toList_ofList
      rw [unquote?, slice_eq_none_of_getLast htext (by omega), if_neg (by simp [hlast])]
      rfl

/-! ### The name that is documented -/

/-- What a literal encloses: a node of kind `string` whose first and last children are two quotes
of the same sort. -/
def literalBody? (source : Source) (tree : Tree) : Option String :=
  match tree.children.head?, tree.children.tail.getLast? with
  | some opening, some closing =>
    if tree.kind = "string" ∧ source.treeText opening ∈ ["'", "\""] ∧
        source.treeText closing = source.treeText opening then
      some ((Text.slice source.text opening.span.stop closing.span.start).getD "")
    else none
  | _, _ => none

theorem literalBody?_of_kind_ne {tree : Tree} (hkind : tree.kind ≠ "string") :
    source.literalBody? tree = none := by
  rw [literalBody?]
  split
  · exact if_neg fun hshape => hkind hshape.1
  · rfl

theorem literalBody?_of_children {tree opening closing : Tree} {children : List Tree}
    (hchildren : tree.children = opening :: children) (hlast : children.getLast? = some closing) :
    source.literalBody? tree =
      if tree.kind = "string" ∧ source.treeText opening ∈ ["'", "\""] ∧
          source.treeText closing = source.treeText opening then
        some ((Text.slice source.text opening.span.stop closing.span.start).getD "")
      else none := by
  simp only [literalBody?, hchildren, List.head?_cons, List.tail_cons, hlast]

/-- The name that an input is documented to have: what the first literal in its decorator encloses,
unless that is empty, and otherwise the name of the member. -/
def documentedName (source : Source) (decorator : Node) (declaration : Declaration) : String :=
  match decorator.tree.preorder.findSome? source.literalBody? with
  | some body => if body = "" then declaration.name else body
  | none => declaration.name

/-- The first node of kind `string` in a decorator is no literal. What an input is named after it,
where `none` stands for the name of the member. -/
inductive Misleads (source : Source) (decorator : Node) : Option String → Prop
  | keyword {token : Tree} (hfirst : decorator.tree.firstString? = some token)
      (hnamed : token.named = false) (htext : source.treeText token = "string") :
      Misleads source decorator (some "trin")
  /-- A keyword that the text lacks. -/
  | supplied {token : Tree} (hfirst : decorator.tree.firstString? = some token)
      (hnamed : token.named = false) (htext : source.treeText token = "") :
      Misleads source decorator none
  /-- A literal that is never closed. -/
  | unclosed {token : Tree} {quote : Char} {body : String}
      (hfirst : decorator.tree.firstString? = some token) (hnamed : token.named = true)
      (hopen : source.literalBody? token = none) (hquote : quote ∈ Grammar.quotes)
      (htext : source.treeText token = String.ofList (quote :: body.toList)) :
      Misleads source decorator (shortened? body)

theorem aliasOf?_of_misleads {decorator : Node} {given : Option String}
    (hmisleads : source.Misleads decorator given) : source.aliasOf? decorator = given := by
  rw [aliasOf?_eq]
  cases hmisleads with
  | keyword hfirst _ htext =>
      rw [hfirst, Option.bind_some, htext]
      decide
  | supplied hfirst _ htext =>
      rw [hfirst, Option.bind_some, htext]
      decide
  | unclosed hfirst _ _ hquote htext =>
      rw [hfirst, Option.bind_some, htext, unquote?_of_quote hquote]

theorem findSome?_literalBody?_of_firstString? {tree token : Tree} {body : String}
    (hfirst : tree.firstString? = some token)
    (hbody : source.literalBody? token = some body) :
    tree.preorder.findSome? source.literalBody? = some body := by
  obtain ⟨-, before, after, hpreorder, hbefore⟩ := List.find?_eq_some_iff_append.mp hfirst
  refine List.findSome?_eq_some_iff.mpr ⟨before, token, after, hpreorder, hbody, ?_⟩
  intro part hpart
  have hkind : part.kind ≠ "string" := by simpa using hbefore part hpart
  exact literalBody?_of_kind_ne hkind

theorem findSome?_literalBody?_of_no_string {tree : Tree} (hnone : tree.firstString? = none) :
    tree.preorder.findSome? source.literalBody? = none := by
  refine List.findSome?_eq_none_iff.mpr fun part hpart => ?_
  have hkind : part.kind ≠ "string" := by simpa using List.find?_eq_none.mp hnone part hpart
  exact literalBody?_of_kind_ne hkind

theorem kind_of_firstString? {tree token : Tree} (hfirst : tree.firstString? = some token) :
    token.kind = "string" := by
  simpa using List.find?_some hfirst

theorem treeText_of_span {tree opening closing : Tree} {quote : Char} {body ending : List Char}
    (hspan : tree.span = ⟨opening.span.start, closing.span.stop⟩)
    (hopening : Covers source.text.toList opening.span [quote])
    (hbody : Covers source.text.toList ⟨opening.span.stop, closing.span.start⟩ body)
    (hclosing : Covers source.text.toList closing.span ending) :
    source.treeText tree = String.ofList (quote :: (body ++ ending)) := by
  refine treeText_of_covers ?_
  rw [hspan]
  exact hopening.append (hbody.append hclosing)

theorem ofList_mem_of_mem_quotes {quote : Char} (hquote : quote ∈ Grammar.quotes) :
    String.ofList [quote] ∈ ["'", "\""] := by
  rcases Grammar.mem_quotes_iff.mp hquote with rfl | rfl
  · exact List.mem_cons_self
  · exact List.mem_cons_of_mem _ List.mem_cons_self

/-- The first node of kind `string` in a decorator misleads, unless it is a literal. -/
theorem misleads_or_quotes (hsource : source.IsSpelled) {decorator : Node} {token : Tree}
    (hinside : ∀ part ∈ decorator.tree.preorder, part ∈ source.tree.preorder)
    (hfirst : decorator.tree.firstString? = some token) :
    (∃ given, source.Misleads decorator given) ∨
      ∃ body, source.literalBody? token = some body ∧ Quotes (source.treeText token) body := by
  have hkind := kind_of_firstString? hfirst
  have hspelled := hsource token (hinside token (List.mem_of_find?_eq_some hfirst)) hkind
  obtain ⟨label, children⟩ := token
  cases hspelled with
  | keyword hnamed hcovers =>
      exact .inl ⟨_, .keyword hfirst hnamed (treeText_of_covers hcovers)⟩
  | supplied hnamed hcovers =>
      exact .inl ⟨_, .supplied hfirst hnamed (treeText_of_covers hcovers)⟩
  | @literal quote opening closing inside hnamed hspan hquotation =>
      obtain ⟨body, hbody⟩ := hquotation.inside
      have hopening : source.treeText opening = String.ofList [quote] :=
        treeText_of_covers hquotation.opens
      rcases hquotation.closes with hclose | hclose
      · have hclosing : source.treeText closing = String.ofList [quote] :=
          treeText_of_covers hclose
        have hquote : source.treeText opening ∈ ["'", "\""] :=
          hopening ▸ ofList_mem_of_mem_quotes hquotation.quote_mem
        refine .inr ⟨String.ofList body, ?_, quote,
          Grammar.mem_quotes_iff.mp hquotation.quote_mem, ?_⟩
        · rw [literalBody?_of_children rfl List.getLast?_concat, slice_of_covers hbody,
            if_pos ⟨hkind, hquote, hclosing.trans hopening.symm⟩]
        · rw [treeText_of_span hspan hquotation.opens hbody hclose, String.toList_ofList,
            String.toList_ofList]
      · have hclosing : source.treeText closing = String.ofList [] := treeText_of_covers hclose
        have hne : source.treeText closing ≠ source.treeText opening := by
          rw [hclosing, hopening]
          exact fun heq => List.cons_ne_nil quote [] (String.ofList_injective heq).symm
        refine .inl ⟨shortened? (String.ofList body), .unclosed hfirst hnamed ?_
          hquotation.quote_mem ?_⟩
        · rw [literalBody?_of_children rfl List.getLast?_concat,
            if_neg fun hshape => hne hshape.2.2]
        · rw [treeText_of_span hspan hquotation.opens hbody hclose, List.append_nil,
            String.toList_ofList]

theorem getD_aliasOf?_of_not_misleads (hsource : source.IsSpelled) {decorator : Node}
    (hinside : ∀ part ∈ decorator.tree.preorder, part ∈ source.tree.preorder)
    (hmisleads : ∀ given, ¬ source.Misleads decorator given) (declaration : Declaration) :
    (source.aliasOf? decorator).getD declaration.name =
      source.documentedName decorator declaration := by
  rw [aliasOf?_eq, documentedName]
  cases hfirst : decorator.tree.firstString? with
  | none =>
      rw [findSome?_literalBody?_of_no_string hfirst]
      rfl
  | some token =>
      rcases misleads_or_quotes hsource hinside hfirst with ⟨given, hgiven⟩ | ⟨body, hbody, hquotes⟩
      · exact absurd hgiven (hmisleads given)
      · rw [findSome?_literalBody?_of_firstString? hfirst hbody, Option.bind_some,
          unquote?_of_quotes hquotes]
        dsimp only
        split
        · rfl
        · rfl

/-! ### Names of inputs -/

def declared (source : Source) : List (Node × Declaration) :=
  source.markers.filterMap fun decorator =>
    (source.decorated? decorator).map fun declaration => (decorator, declaration)

/-- **The name of an input is the documented one, unless a node of kind `string` misleads.** -/
theorem name_eq_documentedName_iff (hsource : source.IsSpelled) :
    List.Forall₂ (fun (decorator, declaration) input =>
        source.findingOf decorator = .found input ∧
        (∀ given, source.Misleads decorator given → input.name = given.getD declaration.name) ∧
        (input.name = source.documentedName decorator declaration ↔
          ∀ given, source.Misleads decorator given →
            given.getD declaration.name = source.documentedName decorator declaration))
      source.declared source.inputs := by
  rw [declared, inputs, findings, List.filterMap_map]
  refine forall₂_filterMap source.markers fun decorator hdecorator => ?_
  have hinside : ∀ part ∈ decorator.tree.preorder, part ∈ source.tree.preorder :=
    fun part hpart => mem_preorder_of_mem_listing (mem_listing_of_mem_markers hdecorator) hpart
  rw [Function.comp_apply, findingOf]
  cases hdeclaration : source.decorated? decorator with
  | none => exact Option.Rel.none
  | some declaration =>
      have hgiven (given : Option String) (hmisleads : source.Misleads decorator given) :
          (source.aliasOf? decorator).getD declaration.name = given.getD declaration.name := by
        rw [aliasOf?_of_misleads hmisleads]
      refine Option.Rel.some ⟨?_, hgiven, ?_⟩
      · rw [findingOf, hdeclaration]
      · dsimp only
        constructor
        · exact fun hname given hmisleads => (hgiven given hmisleads).symm.trans hname
        · intro hdocumented
          by_cases hmisleads : ∃ given, source.Misleads decorator given
          · obtain ⟨given, hmisleads⟩ := hmisleads
            exact (hgiven given hmisleads).trans (hdocumented given hmisleads)
          · exact getD_aliasOf?_of_not_misleads hsource hinside (not_exists.mp hmisleads) declaration

/-- A type argument, a literal that is never closed, and a literal. -/
theorem name_eq_documentedName_iff_panel :
    let source := parse ⟨"panel.ts"⟩
      "class Panel \x7b\n  @Input<string>('x') foo;\n  @Input('ab\n  ) bar;\n  @Input('z') baz;\n\x7d\n"
    source.IsSpelled ∧ source.inputs.map Input.name = ["trin", "a", "z"] ∧
      source.declared.map (fun (decorator, declaration) =>
        source.documentedName decorator declaration) = ["x", "bar", "z"] ∧
      List.Forall₂ (fun (decorator, declaration) input =>
          input.name = source.documentedName decorator declaration ↔
            ∀ given, source.Misleads decorator given →
              given.getD declaration.name = source.documentedName decorator declaration)
        source.declared source.inputs :=
  ⟨isSpelled_parse _ _, by decide +kernel, by decide +kernel,
    (name_eq_documentedName_iff (isSpelled_parse _ _)).imp fun _ _ hinput => hinput.2.2⟩

/-- The type argument of a marker hides the literal behind it. -/
theorem names_of_typeArgument :
    let source := parse ⟨"panel.ts"⟩ "class Panel \x7b\n  @Input<string>('x') foo\n\x7d\n"
    source.inputs.map Input.name = ["trin"] ∧
      source.declared.map (fun (decorator, declaration) =>
        source.documentedName decorator declaration) = ["x"] := by
  decide +kernel

end Source

end StoryKnobs

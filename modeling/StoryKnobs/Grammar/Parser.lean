import StoryKnobs.Grammar.Forest
import StoryKnobs.Grammar.Lexeme

/-!
# Parsers of forests

A parser reads tokens from the text and gives the list of trees that they form. Comments between
two tokens belong to the innermost node that has a token on both sides of them: a token brings the
comments in front of it, and a node lets the comments before its first token out again.
-/

namespace StoryKnobs.Grammar

open Syntax

variable {whole : List Char}

/-- What lies between two tokens, and the text from the second one on. -/
structure Gap where
  comments : List Tree
  lineBreak : Bool
  rest : List Char
  offset : Nat

/-- What a scan between two tokens is inside of. A block comment keeps the text from its start on,
to go back there if it is never closed. -/
inductive GapMode where
  | blank
  | line (start : Nat)
  | block (start : Nat) (text : List Char)

/-- Passes blanks and comments. A line break inside a comment is not counted. -/
def Gap.scan (comments : List Tree) (lineBreak : Bool) : GapMode → Nat → List Char → Gap
  | .blank, offset, [] => ⟨comments.reverse, lineBreak, [], offset⟩
  | .line start, offset, [] =>
    ⟨(.leaf Tree.commentKind true ⟨start, offset⟩ :: comments).reverse, lineBreak, [], offset⟩
  | .block start text, _, [] => ⟨comments.reverse, lineBreak, text, start⟩
  | .blank, offset, '/' :: '/' :: chars => scan comments lineBreak (.line offset) (offset + 2) chars
  | .blank, offset, '/' :: '*' :: chars =>
    scan comments lineBreak (.block offset ('/' :: '*' :: chars)) (offset + 2) chars
  | .blank, offset, char :: chars =>
    if isBlank char then
      scan comments (lineBreak || char == '\n') .blank (offset + char.utf8Size) chars
    else ⟨comments.reverse, lineBreak, char :: chars, offset⟩
  | .line start, offset, char :: chars =>
    if endsLine char then
      scan (.leaf Tree.commentKind true ⟨start, offset⟩ :: comments) (lineBreak || char == '\n')
        .blank (offset + char.utf8Size) chars
    else scan comments lineBreak (.line start) (offset + char.utf8Size) chars
  | .block start _, offset, '*' :: '/' :: chars =>
    scan (.leaf Tree.commentKind true ⟨start, offset + 2⟩ :: comments) lineBreak .blank (offset + 2)
      chars
  | .block start text, offset, char :: chars =>
    scan comments lineBreak (.block start text) (offset + char.utf8Size) chars

def GapMode.Within (whole : List Char) : GapMode → Prop
  | .block start text => IsPlace whole text start
  | _ => True

theorem Gap.scan_isPlace {comments : List Tree} {lineBreak : Bool} {mode : GapMode} {offset : Nat}
    {chars : List Char} (hplace : IsPlace whole chars offset) (hmode : mode.Within whole) :
    IsPlace whole (Gap.scan comments lineBreak mode offset chars).rest
      (Gap.scan comments lineBreak mode offset chars).offset := by
  fun_induction Gap.scan comments lineBreak mode offset chars with
  | case1 => exact hplace
  | case2 => exact hplace
  | case3 => exact hmode
  | case4 _ _ _ _ ih => exact ih hplace.cons.cons trivial
  | case5 _ _ _ _ ih => exact ih hplace.cons.cons hplace
  | case6 _ _ _ _ _ _ _ _ ih => exact ih hplace.cons trivial
  | case7 => exact hplace
  | case8 _ _ _ _ _ _ _ ih => exact ih hplace.cons trivial
  | case9 _ _ _ _ _ _ _ ih => exact ih hplace.cons trivial
  | case10 _ _ _ _ _ _ ih => exact ih hplace.cons.cons trivial
  | case11 _ _ _ _ _ _ _ _ ih => exact ih hplace.cons hmode

theorem spelledTree_comment (span : Span) :
    SpelledTree whole (.leaf Tree.commentKind true span) :=
  spelledTree_leaf (.of_isPlain (show isPlain Tree.commentKind from rfl))

theorem Gap.scan_spelled {comments : List Tree} {lineBreak : Bool} {mode : GapMode} {offset : Nat}
    {chars : List Char} (hcomments : ∀ tree ∈ comments, SpelledTree whole tree) :
    ∀ tree ∈ (Gap.scan comments lineBreak mode offset chars).comments, SpelledTree whole tree := by
  have hreverse {trees : List Tree} (htrees : ∀ tree ∈ trees, SpelledTree whole tree) :
      ∀ tree ∈ trees.reverse, SpelledTree whole tree :=
    fun tree htree => htrees tree (List.mem_reverse.mp htree)
  have hcons {trees : List Tree} (htrees : ∀ tree ∈ trees, SpelledTree whole tree) (span : Span) :
      ∀ tree ∈ .leaf Tree.commentKind true span :: trees, SpelledTree whole tree :=
    List.forall_mem_cons.mpr ⟨spelledTree_comment span, htrees⟩
  fun_induction Gap.scan comments lineBreak mode offset chars with
  | case1 => exact hreverse hcomments
  | case2 => exact hreverse (hcons hcomments _)
  | case3 => exact hreverse hcomments
  | case4 _ _ _ _ ih => exact ih hcomments
  | case5 _ _ _ _ ih => exact ih hcomments
  | case6 _ _ _ _ _ _ _ _ ih => exact ih hcomments
  | case7 => exact hreverse hcomments
  | case8 _ _ _ _ _ _ _ ih => exact ih (hcons hcomments _)
  | case9 _ _ _ _ _ _ _ ih => exact ih hcomments
  | case10 _ _ _ _ _ _ ih => exact ih (hcons hcomments _)
  | case11 _ _ _ _ _ _ _ _ ih => exact ih hcomments

/-- The state of a parser: the text right after the last token, and the same text after the gap
that follows. `size` is the number of characters of the whole text and bounds every loop. -/
structure Input (whole : List Char) where
  size : Nat
  after : List Char
  afterOffset : Nat
  gap : Gap
  after_isPlace : IsPlace whole after afterOffset
  rest_isPlace : IsPlace whole gap.rest gap.offset
  spelled : ∀ tree ∈ gap.comments, SpelledTree whole tree

namespace Input

def rest (input : Input whole) : List Char := input.gap.rest

def offset (input : Input whole) : Nat := input.gap.offset

def comments (input : Input whole) : Forest whole := ⟨input.gap.comments, input.spelled⟩

def ofPlace (size : Nat) (chars : List Char) (offset : Nat) (hplace : IsPlace whole chars offset) :
    Input whole :=
  ⟨size, chars, offset, Gap.scan [] false .blank offset chars, hplace,
    Gap.scan_isPlace hplace trivial, Gap.scan_spelled fun _ htree => nomatch htree⟩

def ofChars (whole : List Char) : Input whole := .ofPlace whole.length whole 0 (.start whole)

def span (input : Input whole) (count : Nat) : Span :=
  ⟨input.offset, input.offset + byteCount (input.rest.take count)⟩

def skip (input : Input whole) (count : Nat) : Input whole :=
  .ofPlace input.size (input.rest.drop count) (input.span count).stop
    (input.rest_isPlace.drop count)

def spanAfter (input : Input whole) (count : Nat) : Span :=
  ⟨input.afterOffset, input.afterOffset + byteCount (input.after.take count)⟩

def skipAfter (input : Input whole) (count : Nat) : Input whole :=
  .ofPlace input.size (input.after.drop count) (input.spanAfter count).stop
    (input.after_isPlace.drop count)

theorem covers_span {input : Input whole} {slice : List Char}
    (hstarts : slice.isPrefixOf input.rest = true) :
    Covers whole (input.span slice.length) slice := by
  obtain ⟨chars, hchars⟩ := List.isPrefixOf_iff_prefix.mp hstarts
  have hplace : IsPlace whole (slice ++ chars) input.offset := hchars ▸ input.rest_isPlace
  have htake : input.rest.take slice.length = slice := by
    rw [← hchars, List.take_left]
  rw [span, htake]
  exact hplace.covers

theorem covers_spanAfter {input : Input whole} {slice : List Char}
    (hstarts : slice.isPrefixOf input.after = true) :
    Covers whole (input.spanAfter slice.length) slice := by
  obtain ⟨chars, hchars⟩ := List.isPrefixOf_iff_prefix.mp hstarts
  have hplace : IsPlace whole (slice ++ chars) input.afterOffset := hchars ▸ input.after_isPlace
  have htake : input.after.take slice.length = slice := by
    rw [← hchars, List.take_left]
  rw [spanAfter, htake]
  exact hplace.covers

end Input

abbrev Parser (whole : List Char) := StateT (Input whole) Option

/-- A part of the grammar: reads tokens and gives the trees they form. -/
abbrev Rule (whole : List Char) := Parser whole (Forest whole)

namespace Rule

def fail : Rule whole := fun _ => none

def empty : Rule whole := pure ∅

def leaf (kind : String) (count : Nat) (hkind : isPlain kind := by exact Eq.refl true) :
    Rule whole :=
  fun input => some (input.comments ++ .leaf kind (input.span count) hkind, input.skip count)

/-- A token of the `count` characters that follow the last token without any gap. -/
def tight (kind : String) (count : Nat) (hkind : isPlain kind := by exact Eq.refl true) :
    Rule whole :=
  fun input => some (.leaf kind (input.spanAfter count) hkind, input.skipAfter count)

def stray (count : Nat) : Rule whole := fun input =>
  some (input.comments ++ .stray (input.span count), input.skip count)

def rest : Parser whole (List Char) := fun input => some (input.rest, input)

def after : Parser whole (List Char) := fun input => some (input.after, input)

/-- Whether a line ends between the last token and the next one. -/
def lineBreak : Parser whole Bool := fun input => some (input.gap.lineBreak, input)

def sees (mark : String) : Parser whole Bool := return mark.toList.isPrefixOf (← rest)

def seesWord (word : String) : Parser whole Bool := do
  let chars := word.toList
  let rest ← rest
  return chars.isPrefixOf rest && wordTail 0 (rest.drop chars.length) == 0

def mark (mark : String) : Rule whole := fun input =>
  if hstarts : mark.toList.isPrefixOf input.rest then
    some (input.comments ++ .token mark (input.span mark.toList.length)
      (Input.covers_span hstarts), input.skip mark.toList.length)
  else none

/-- The mark `mark`, unless one of the characters `others` follows it. -/
def markNot (text : String) (others : List Char) : Rule whole := do
  match (← rest).drop text.length with
  | char :: _ => guard (!others.contains char)
  | [] => pure ()
  mark text

def word (word : String) : Rule whole := do
  guard (← seesWord word)
  mark word

def namedWord (word : String) (hkind : isPlain word := by exact Eq.refl true) : Rule whole := do
  guard (← seesWord word)
  leaf word word.length hkind

def name (kind : String) (hkind : isPlain kind := by exact Eq.refl true) : Rule whole := do
  let length := wordLength (← rest)
  guard (0 < length)
  leaf kind length hkind

/-- The text of the identifier at the next token; empty if there is none. -/
def peekWord : Parser whole String := do
  let rest ← rest
  return String.ofList (rest.take (wordLength rest))

def either (rule other : Rule whole) : Rule whole := fun input =>
  match rule input with
  | some result => some result
  | none => other input

def oneOf : List (Rule whole) → Rule whole
  | [] => fail
  | rule :: rules => either rule (oneOf rules)

def maybe (rule : Rule whole) : Rule whole := either rule empty

def all : List (Rule whole) → Rule whole
  | [] => empty
  | rule :: rules => do return (← rule) ++ (← all rules)

def follows (rule : Rule whole) : Parser whole Bool := fun input =>
  some ((rule input).isSome, input)

/-- Repeats `rule` at most `count` times, as long as it reads something. -/
def repeatUpTo (rule : Rule whole) : Nat → Forest whole → Rule whole
  | 0, found => pure found.reverse
  | count + 1, found => fun input =>
    match rule input with
    | some (trees, next) =>
      if input.offset < next.offset || input.afterOffset < next.afterOffset then
        repeatUpTo rule count (trees.reverse ++ found) next
      else some (found.reverse, input)
    | none => some (found.reverse, input)

def many (rule : Rule whole) : Rule whole := fun input =>
  repeatUpTo rule (input.size + 1) ∅ input

/-- `rule` at least once, with `separator` between two of them. -/
def sepBy (rule separator : Rule whole) : Rule whole :=
  all [rule, many (all [separator, rule])]

def setField (name : String) (forest : Forest whole) : Forest whole :=
  let (lead, trees) := forest.span Tree.isExtra
  lead ++ trees.withField name

def field (name : String) (rule : Rule whole) : Rule whole := return setField name (← rule)

/-- Puts trees under a new node, whose span goes from the first to the last of them. -/
def wrap (kind : String) (forest : Forest whole) (hkind : isPlain kind := by exact Eq.refl true) :
    Forest whole :=
  let (lead, parts) := forest.span Tree.isExtra
  match parts.trees with
  | [] => lead
  | first :: others =>
    lead ++ .under kind ⟨first.span.start, ((others.getLast?).getD first).span.stop⟩ parts hkind

def node (kind : String) (rule : Rule whole) (hkind : isPlain kind := by exact Eq.refl true) :
    Rule whole :=
  return wrap kind (← rule) hkind

/-- A comment opened or closed by a markup bracket, up to the end of its line. Such a comment is
read only where neither an operator nor the end of a statement could stand. -/
def markupComment : Rule whole := do
  let open_ ← sees "<!--"
  let close ← sees "-->"
  guard (open_ || close)
  leaf Tree.markupCommentKind (runLength (· != '\n') (← rest))

def markupComments : Rule whole := many markupComment

end Rule

end StoryKnobs.Grammar

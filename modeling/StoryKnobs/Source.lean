import StoryKnobs.Grammar.Program
import StoryKnobs.Path.Basic
import StoryKnobs.Syntax.Search
import StoryKnobs.Text.Slice

/-!
# Component sources

The text of a component with the syntax tree that belongs to it.
-/

namespace StoryKnobs

open Syntax

/-- A text, the path it was read from, and a tree over it. -/
structure Source where
  path : Path
  text : String
  tree : Tree

namespace Source

/-- Texts in files with this extension may contain markup elements. -/
def markupExtension : String := "tsx"

def parse (path : Path) (text : String) : Source :=
  ⟨path, text, Grammar.parse text (path.extension? == some markupExtension)⟩

def root (source : Source) : Node := Node.root source.tree

/-- The text of a node; empty if the node does not fall between characters of the source. -/
def textOf (source : Source) (node : Node) : String :=
  (Text.slice source.text node.span.start node.span.stop).getD ""

def lineOf (source : Source) (node : Node) : Nat :=
  Text.lineAt source.text node.span.start

end Source

end StoryKnobs

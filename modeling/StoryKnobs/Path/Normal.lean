import StoryKnobs.Path.Basic

/-!
# Normal forms of paths

The normal form of a path is found without looking at any directory: `.` vanishes, and `..` takes
away the component in front of it, be it a name or the root. Normal forms are ordered component by
component.
-/

namespace StoryKnobs.Path

def step (stack : List Component) : Component → List Component
  | .current => stack
  | .parent => stack.dropLast
  | component => stack ++ [component]

def normal (path : Path) : List Component := path.components.foldl step []

def Component.text : Component → String
  | root => ""
  | current => "."
  | parent => ".."
  | name text => text

def ofComponents : List Component → Path
  | [.root] => ⟨"/"⟩
  | components => ⟨"/".intercalate (components.map Component.text)⟩

def normalize (path : Path) : Path := ofComponents path.normal

def Component.rank : Component → Nat
  | root => 0
  | current => 1
  | parent => 2
  | name _ => 3

/-- Whether a component comes before another one. Names have the order of their characters. -/
def Component.before : Component → Component → Bool
  | name text, name other => text < other
  | component, other => component.rank < other.rank

def before : List Component → List Component → Bool
  | _, [] => false
  | [], _ :: _ => true
  | component :: components, other :: others =>
    component.before other || (component == other && before components others)

end StoryKnobs.Path

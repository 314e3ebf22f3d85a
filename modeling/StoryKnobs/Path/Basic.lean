import StoryKnobs.Text.Segments

/-!
# Paths

A path is a text, read as components between slashes. Empty components and `.` mean nothing, except
for the slash at the start of an absolute path and a `.` at the start of a relative one. Joining
and printing keep the text as it was written.
-/

namespace StoryKnobs

/-- A path as it was written. -/
structure Path where
  text : String
deriving DecidableEq, Repr, Inhabited

namespace Path

inductive Component where
  | root
  | current
  | parent
  | name (text : String)
deriving DecidableEq, Repr, Inhabited

def isSeparator (char : Char) : Bool := char == '/'

/-- Segments without meaning, unless they start the path. -/
def isIdle (segment : List Char) : Bool := segment == [] || segment == ['.']

/-- The meaning of a segment after the first one. -/
def componentOf (segment : List Char) : Option Component :=
  if isIdle segment then none
  else if segment == ['.', '.'] then some .parent
  else some (.name (String.ofList segment))

/-- The meaning of the first segment of a path with or without further ones. -/
def firstComponentOf (segment : List Char) (alone : Bool) : Option Component :=
  if segment == [] then if alone then none else some .root
  else if segment == ['.'] then some .current
  else componentOf segment

def components (path : Path) : List Component :=
  let (first, others) := Text.splitFirst isSeparator path.text.toList
  (firstComponentOf first others.isEmpty).toList ++ others.filterMap componentOf

def isAbsolute (path : Path) : Bool := path.text.toList.head? == some '/'

/-- The segments that a disk follows one by one: all but the empty ones. -/
def steps (path : Path) : List String :=
  ((Text.segments isSeparator path.text.toList).filter (!·.isEmpty)).map String.ofList

/-- The steps that lead somewhere else. -/
def names (path : Path) : List String := path.steps.filter (· != ".")

/-- `other` seen from the directory `path`. An absolute path stays as it is. -/
def join (path other : Path) : Path :=
  if other.isAbsolute then other
  else if path.text.isEmpty || path.text.toList.getLast? == some '/' then ⟨path.text ++ other.text⟩
  else ⟨path.text ++ "/" ++ other.text⟩

/-- The last component, if it is a name. -/
def fileName? (path : Path) : Option String :=
  match path.components.getLast? with
  | some (.name text) => some text
  | _ => none

/-- What follows the last dot of the file name, if something stands before that dot. -/
def extension? (path : Path) : Option String := do
  let name ← path.fileName?
  let reversed := name.toList.reverse
  let ending := reversed.takeWhile (· != '.')
  match reversed.drop ending.length with
  | '.' :: _ :: _ => some (String.ofList ending.reverse)
  | _ => none

def dropIdle (segments : List (List Char)) : List (List Char) :=
  (segments.reverse.dropWhile isIdle).reverse

def ofSegments (segments : List (List Char)) : Path :=
  ⟨"/".intercalate (segments.map String.ofList)⟩

/-- The path with a first segment and the others behind it. It is the root if all are empty. -/
def ofFirst : List Char → List (List Char) → Path
  | [], [] => ⟨"/"⟩
  | first, others => ofSegments (first :: others)

def parent? (path : Path) : Option Path :=
  let (first, others) := Text.splitFirst isSeparator path.text.toList
  match dropIdle others, first with
  | [], [] => none
  | [], _ => some ⟨""⟩
  | others, _ => some (ofFirst first (dropIdle others.dropLast))

end Path

end StoryKnobs

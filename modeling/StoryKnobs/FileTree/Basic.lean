import StoryKnobs.Path.Basic

/-!
# File trees

What the making of stories asks of the place where files are kept: to read a text, and to write a
new one without ever touching a file that is there.
-/

namespace StoryKnobs

inductive FileError where
  /-- A tree in memory holds no file with this normal form. -/
  | unknown (path : Path)
  | notFound
  | notADirectory
  | isADirectory
  | alreadyExists
  | nameTooLong
  | nulInName
  | notText
deriving DecidableEq, Repr, Inhabited

namespace FileError

def message : FileError → String
  | unknown path => "file not found in memory: " ++ path.text
  | notFound => "No such file or directory (os error 2)"
  | notADirectory => "Not a directory (os error 20)"
  | isADirectory => "Is a directory (os error 21)"
  | alreadyExists => "File exists (os error 17)"
  | nameTooLong => "File name too long (os error 36)"
  | nulInName => "file name contained an unexpected NUL byte"
  | notText => "stream did not contain valid UTF-8"

end FileError

inductive WriteOutcome where
  | written
  /-- Something was there before, and nothing has changed. -/
  | alreadyExists
deriving DecidableEq, Repr, Inhabited

class FileTree (m : Type → Type) where
  /-- The text of the file at a path. -/
  read : Path → m (Except FileError String)
  /-- Writes a text to a path at which nothing is. Missing directories are made. -/
  writeNew : Path → String → m (Except FileError WriteOutcome)

end StoryKnobs

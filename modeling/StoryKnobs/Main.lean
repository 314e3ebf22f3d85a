import StoryKnobs.Command.Run
import StoryKnobs.FileTree.Disk

/-!
# The program

Runs the command line on the files of the machine. Files are written as on a `Disk`: a text is
staged beside its path and then linked there, so that a write that fails leaves no part of it.
-/

namespace StoryKnobs

/-- The code of an error of the operating system. Some calls give it with its sign changed. -/
def FileError.codeOf? : IO.Error → Option UInt32
  | .noFileOrDirectory _ code _ | .alreadyExists _ code _ | .invalidArgument _ code _
  | .inappropriateType _ code _ | .otherError code _ => some (min code (0 - code))
  | _ => none

/-- The cause that an error stands for, if it is one that a disk shows. A name with a NUL in it is
refused as an invalid argument. -/
def FileError.ofSystem? (error : IO.Error) : Option FileError :=
  match codeOf? error with
  | some 2 => some .notFound
  | some 17 => some .alreadyExists
  | some 20 => some .notADirectory
  | some 21 => some .isADirectory
  | some 22 => some .nulInName
  | some 36 => some .nameTooLong
  | _ => none

/-- Actions on the files of the machine. An error that a disk does not show ends the program. -/
abbrev Host := ExceptT FileError IO

namespace Host

/-- Runs an action and tells why it failed. -/
def call {α : Type} (action : IO α) : Host α := ExceptT.mk do
  try
    return .ok (← action)
  catch error =>
    match FileError.ofSystem? error with
    | some error => return .error error
    | none => throw error

def contains (path : Path) : IO Bool := do
  try
    discard <| IO.FS.realPath path.text
    return true
  catch _ =>
    return false

def read (path : Path) : Host String := do
  let bytes ← call (IO.FS.readBinFile path.text)
  match String.fromUTF8? bytes with
  | some text => return text
  | none => throw .notText

/-- Makes the directory `path`. It is no failure if one is there. -/
def makeDirectory (path : Path) : IO Unit := do
  try
    IO.FS.createDir path.text
  catch error =>
    unless ← contains (path.join ⟨"."⟩) do throw error

/-- Makes a directory and those missing above it, at most `count + 1` in all. -/
def makeDirectories (path : Path) : Nat → IO Unit
  | 0 => makeDirectory path
  | count + 1 => do
    try
      makeDirectory path
    catch error =>
      match FileError.ofSystem? error, path.parent? with
      | some .notFound, some parent =>
        unless parent.text.isEmpty do makeDirectories parent count
        makeDirectory path
      | _, _ => throw error

def stagedName : IO String := do
  let letters := "0123456789abcdefghijklmnopqrstuvwxyzABCDEFGHIJKLMNOPQRSTUVWXYZ".toList
  let chosen ← (List.range 6).mapM fun _ => do
    return letters.getD (← IO.rand 0 (letters.length - 1)) '0'
  return ".tmp" ++ String.ofList chosen

def stage (directory : Path) : Nat → IO (Path × IO.FS.Handle)
  | 0 => throw (.alreadyExists none 17 "no name is left for a staged file")
  | attempts + 1 => do
    let staged := directory.join ⟨← stagedName⟩
    try
      return (staged, ← IO.FS.Handle.mk staged.text .writeNew)
    catch error =>
      match FileError.ofSystem? error with
      | some .alreadyExists => stage directory attempts
      | _ => throw error

/-- Links a staged file to a path if nothing is there. That a path with a slash at its end cannot
be one of a file is told like the absence of a directory. -/
def publish (staged path : Path) : Host WriteOutcome := ExceptT.mk do
  match ← call (IO.FS.hardLink staged.text path.text) with
  | .ok () => return .ok .written
  | .error .alreadyExists => return .ok .alreadyExists
  | .error .notFound =>
    return .error (if path.text.toList.getLast? == some '/' then .notADirectory else .notFound)
  | .error error => return .error error

/-- Stages a text beside its path and publishes it. The staged file is removed in any case. -/
def persist (path : Path) (text : String) : Host WriteOutcome := do
  let home : Path := ⟨(← call IO.currentDir).toString⟩
  let (staged, handle) ← call (stage (home.join (Disk.stagingDirectory path)) 65536)
  try
    call do
      handle.putStr text
      handle.flush
    publish staged path
  finally
    try IO.FS.removeFile staged.text catch _ => pure ()

def writeNew (path : Path) (text : String) : Host WriteOutcome := do
  if ← contains path then return .alreadyExists
  match path.parent? with
  | some parent =>
    unless parent.text.isEmpty do call (makeDirectories parent parent.text.length)
  | none => pure ()
  persist path text

end Host

instance : FileTree IO where
  read path := Host.read path
  writeNew path text := Host.writeNew path text

end StoryKnobs

open StoryKnobs in
def main (arguments : List String) : IO UInt32 := do
  let report : Command.Report ← Command.run arguments
  for notice in report.notices do
    match notice with
    | .log event => IO.eprintln event.line
    | .failure text => IO.eprintln text
  IO.print report.output
  return report.code.toUInt32

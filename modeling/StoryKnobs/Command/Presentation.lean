import StoryKnobs.Command.Arguments

/-!
# Presentation options

Three options say how a run talks, and not what it does. They may stand in front of the command and
behind it, up to `--`.
-/

namespace StoryKnobs.Command

def Switch.isPresentation : Switch → Bool
  | format | quiet | verbose => true
  | schema | field _ | help | version => false

def presentation? (name : String) : Option Switch :=
  if name == "output" then some .format
  else if name == "quiet" then some .quiet
  else if name == "verbose" then some .verbose
  else none

def bare : List String → List String
  | [] => []
  | argument :: arguments =>
    match argument.toList with
    | ['-', '-'] => argument :: arguments
    | '-' :: '-' :: chars =>
      match presentation? (splitLong chars).1, (splitLong chars).2 with
      | none, _ => argument :: bare arguments
      | some _, some _ => bare arguments
      | some switch, none =>
        if switch.hasValue then
          match arguments with
          | [] => []
          | _ :: others => bare others
        else bare arguments
    | ['-', 'v'] => bare arguments
    | _ => argument :: bare arguments

end StoryKnobs.Command

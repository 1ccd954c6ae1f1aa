import HostBridge.CommandLine.Run

/-!
# The executable

Gives `CommandLine.run` the files it asks for and prints what it says.
-/

set_option autoImplicit false

namespace HostBridge.CommandLine

/-- Reads a file, if it can be read as text. -/
def readFile? (path : String) : IO (Option String) := do
  try
    let text ← IO.FS.readFile path
    return some text
  catch _ => return none

/-- Reads the files that arguments name. -/
def readFiles (args : List String) : IO (List (String × String)) := do
  match Arguments.parse args with
  | .error _ => return []
  | .ok a =>
    let found ← [a.check, a.env, a.config].filterMapM fun path => do
      match path with
      | none => return none
      | some path => return (← readFile? path).map fun text => (path, text)
    return found

/-- Whether the output shows colours: `NO_COLOR` and `FORCE_COLOR` decide, and else whether it goes
to a terminal. -/
def showsColour : IO Bool := do
  if (← IO.getEnv "NO_COLOR").isSome then return false
  if (← IO.getEnv "FORCE_COLOR").isSome then return true
  (← IO.getStdout).isTty

end HostBridge.CommandLine

open HostBridge.CommandLine in
/-- Runs the program and ends with status 1 if it fails. -/
def main (args : List String) : IO UInt32 := do
  let files ← readFiles args
  let colour ← showsColour
  let result := run ⟨fun path => files.lookup path, colour⟩ args
  IO.print result.stdout
  match result.failure with
  | none => return 0
  | some failure =>
    IO.eprintln ("Error: " ++ failure.message)
    return 1

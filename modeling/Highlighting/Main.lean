import Highlighting.CommandLine

/-!
# The program

Reads the settings and the files that the arguments name, and prints the answer.
-/

namespace Highlighting.CommandLine

/-- The content of a file, if it can be read as text. -/
def contentOf? (path : String) : IO (Option String) := do
  try
    return some (← IO.FS.readFile path)
  catch _ =>
    return none

/-- The content of the settings file in the home directory. -/
def settingsOfHome? : IO (Option String) := do
  match ← IO.getEnv "HOME" with
  | none => return none
  | some home => contentOf? s!"{home}/.hlbuffer.conf"

/-- Answers the arguments. -/
def answer (args : List String) : IO UInt32 := do
  let settings ← settingsOfHome?
  let contents ← (command args).files.mapM fun path => do
    return (path, ← contentOf? path)
  let response := run args settings fun path => (contents.lookup path).join
  IO.print response.out
  match response.err with
  | some line => IO.eprintln line
  | none => pure ()
  return response.code.toUInt32

end Highlighting.CommandLine

/-- Runs the program. -/
def main (args : List String) : IO UInt32 :=
  Highlighting.CommandLine.answer args

import Highlighting.Session

/-!
# The command line

The program prints the regions of one file.  What it does is decided by its arguments, by what the
files hold and by the settings; reading them is left to the caller.
-/

namespace Highlighting.CommandLine

/-- What the program prints and how it ends. -/
structure Response where
  code : Nat
  out : String
  /-- A line for the error stream. -/
  err : Option String
  deriving Repr, DecidableEq

/-- What the arguments ask for. -/
structure Request where
  /-- The name of the definition to use. -/
  language : Option String
  /-- Files with more definitions. -/
  definitions : List String
  file : Option String
  deriving Repr, DecidableEq

/-- What the arguments amount to. -/
inductive Command
  | help
  | version
  | unknown (option : String)
  | print (r : Request)
  deriving Repr, DecidableEq

/-- The version of the program. -/
def version : String :=
  "0.1.0"

/-- How the program is used. -/
def usage : String :=
  String.intercalate "\n"
    [s!"hlbuffer {version} - incremental highlighting and folding",
      "",
      "Usage: hlbuffer [OPTIONS] FILE",
      "",
      "Prints every folding region of FILE as start - end (line:column).",
      "",
      "Options:",
      "  -l, --lang NAME    Use the named definition instead of detecting it",
      "  -s, --syntax FILE  Load an extra TOML language definition",
      "  -h, --help         Show this help message",
      "  -V, --version      Show version information",
      "",
      "Set HLBUFFER_LOG=debug to trace highlight passes.",
      ""]

/-- Reads the arguments in order.  The first that asks for help, for the version or for something
unknown decides; otherwise the last of each kind counts, and all definitions. -/
def parse (r : Request) : List String → Command
  | [] => .print r
  | arg :: args =>
    if arg = "--help" ∨ arg = "-h" then .help
    else if arg = "--version" ∨ arg = "-V" then .version
    else if arg = "--lang" ∨ arg = "-l" then
      match args with
      | [] => parse { r with language := none } []
      | name :: args => parse { r with language := some name } args
    else if arg = "--syntax" ∨ arg = "-s" then
      match args with
      | [] => parse r []
      | path :: args => parse { r with definitions := r.definitions ++ [path] } args
    else if arg.startsWith "-" then .unknown arg
    else parse { r with file := some arg } args

/-- What the arguments amount to. -/
def command (args : List String) : Command :=
  parse ⟨none, [], none⟩ args

/-- The files that must be read to answer. -/
def Command.files : Command → List String
  | print r =>
    match r.file with
    | some f => f :: r.definitions
    | none => []
  | _ => []

/-- A region as the program prints it, lines and columns counted from 1. -/
def showRange (r : FoldRange) : String :=
  s!"{r.start.line + 1}:{r.start.column + 1} - {r.stop.line + 1}:{r.stop.column + 1}\n"

/-- The catalog with the languages of some more files. -/
def addDefinitions (read : String → Option String) (c : Catalog) (nextId : Nat) :
    List String → Except Error Catalog
  | [] => .ok c
  | path :: paths =>
    match read path with
    | none => .error .unreadable
    | some source => do
      let l ← Language.ofSource source
      addDefinitions read (c.add ⟨nextId, l, false⟩) (nextId + 1) paths

/-- All regions of a text; so much time passes before each of the looks at the clock. -/
def regions (settings : Settings) (h : Handle) (text : String) (pauses : List Nat) (sums : Sums) :
    List FoldRange :=
  let (b, s) := Buffer.create settings.maxContexts settings.tabWidth settings.lookahead
    ((Shared.fresh settings.resetDelay sums).wait pauses)
  let b := (b.setText text).setHandle h
  match (Session.foldEach b s b.lineCount 0).result with
  | .ok ranges => ranges.filterMap id
  | .error _ => []

/-- The regions of a file, or why there are none to show. -/
def report (settings : Settings) (read : String → Option String) (r : Request) (file : String)
    (pauses : List Nat) (sums : Sums) : Except Error String := do
  let c ← addDefinitions read .builtin Builtin.languages.length r.definitions
  let h ← match r.language with
    | some name => c.get name
    | none => .ok (c.forPath file)
  match read file with
  | none => throw .unreadable
  | some text =>
    let count := (Text.linesOf text).length
    return s!"{file}: {h.name} ({count} lines)\n" ++
      String.join ((regions settings h text pauses sums).map showRange)

/-- What the program answers to its arguments, given the content of its settings file, if there is
one, of all files that can be read, and how much time passes while it runs. -/
def run (args : List String) (settings : Option String) (read : String → Option String)
    (pauses : List Nat := []) (sums : Sums := .wrapping) : Response :=
  match command args with
  | .help => ⟨0, usage, none⟩
  | .version => ⟨0, s!"hlbuffer {version}\n", none⟩
  | .unknown option => ⟨2, usage, some s!"Unknown option: {option}"⟩
  | .print r =>
    match r.file with
    | none => ⟨0, usage, none⟩
    | some file =>
      match report (.load settings) read r file pauses sums with
      | .ok out => ⟨0, out, none⟩
      | .error e => ⟨1, "", some s!"Error: {e.message}"⟩

end Highlighting.CommandLine

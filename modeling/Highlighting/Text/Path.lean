/-!
# Names of files

The name of a file is the last part of its path; parts that are empty or a single dot do not count.
Its extension is what follows the last dot, unless nothing precedes that dot.
-/

namespace Highlighting.Text

/-- The pieces between slashes. -/
def splitSlashes : List Char → List (List Char)
  | [] => [[]]
  | c :: cs =>
    if c == '/' then [] :: splitSlashes cs
    else match splitSlashes cs with
      | [] => [[c]]
      | part :: parts => (c :: part) :: parts

/-- The name of the file that a path leads to; none when it leads to a directory by its form. -/
def fileName? (path : String) : Option (List Char) :=
  match ((splitSlashes path.toList).filter fun p => p != [] && p != ['.']).getLast? with
  | some ['.', '.'] => none
  | name => name

/-- The extension of the file that a path leads to. -/
def extension? (path : String) : Option String :=
  (fileName? path).bind fun name =>
    let after := (name.reverse.takeWhile (· != '.')).reverse
    let before := (name.reverse.dropWhile (· != '.')).drop 1
    if before.isEmpty then none else some (String.ofList after)

end Highlighting.Text

import Highlighting.Handle
import Highlighting.Language.Builtin
import Highlighting.Language.File
import Highlighting.Text.Path
import Highlighting.Unicode.Lowercase

/-!
# The catalog of languages

Languages are known by name, and found for a file by its extension.  A language that is added
takes the place of one with its name, and takes over the extensions it lists.  Extensions are
compared in lower case.
-/

namespace Highlighting

/-- The languages that are known. -/
structure Catalog where
  /-- By name; each name once. -/
  languages : List (String × Handle)
  /-- The language of each extension, the latest first. -/
  extensions : List (String × String)
  deriving Repr, DecidableEq

namespace Catalog

/-- No language. -/
def empty : Catalog :=
  ⟨[], []⟩

/-- Adds a language under the number of its handle. -/
def add (c : Catalog) (h : Handle) : Catalog :=
  let name := h.language.name
  { languages := (name, h) :: c.languages.filter fun e => e.1 != name
    extensions :=
      (h.language.extensions.map fun e => (Unicode.lowercase e, name)).reverse ++ c.extensions }

/-- The catalog of the built-in languages, with handles numbered from 0 on. -/
def builtin : Catalog :=
  Builtin.languages.zipIdx.foldl (fun c (l, id) => c.add ⟨id, l, false⟩) empty

/-- The language of a name. -/
def get (c : Catalog) (name : String) : Except Error Handle :=
  match c.languages.lookup name with
  | some h => .ok h
  | none => .error (.unknownDefinition name)

/-- The name of the language of a file, if its extension is known. -/
def detect? (c : Catalog) (path : String) : Option String :=
  (Text.extension? path).bind fun e => c.extensions.lookup (Unicode.lowercase e)

/-- The language of plain text. -/
def plain (c : Catalog) : Handle :=
  (c.languages.lookup Language.plainName).getD ⟨0, .plainText, false⟩

/-- The language of a file, which is plain text unless its extension is known. -/
def forPath (c : Catalog) (path : String) : Handle :=
  ((c.detect? path).bind fun name => c.languages.lookup name).getD c.plain

/-- The names of all languages, in ascending order. -/
def names (c : Catalog) : List String :=
  (c.languages.map (·.1)).mergeSort fun a b => !decide (b < a)

end Catalog

end Highlighting

/-!
# Values of a TOML document

A document is a table of values.  Each table knows how it came about, since that decides whether a
later line may add to it.
-/

namespace Highlighting.Toml

/-- A value that holds no others. -/
inductive Scalar
  | string (s : String)
  | integer (n : Int)
  /-- A floating-point number as it is written. -/
  | float (written : String)
  | boolean (b : Bool)
  /-- A date, a time or both, as it is written. -/
  | moment (written : String)
  deriving Repr, DecidableEq

/-- How a table came about. -/
inductive TableForm
  /-- By a header of its own. -/
  | declared
  /-- By the header of a table inside it. -/
  | implied
  /-- By a dotted key. -/
  | dotted
  /-- As a value in braces. -/
  | inline
  deriving Repr, DecidableEq

/-- A value of a document. -/
inductive Node
  | scalar (s : Scalar)
  | array (items : List Node)
  | table (form : TableForm) (entries : List (String × Node))
  /-- Tables that share a header in double brackets. -/
  | tables (items : List Node)
  deriving Repr

/-- Keys and values of a table, in the order in which they were given. -/
abbrev Entries := List (String × Node)

/-- Replaces the value of a key. -/
def Entries.set (key : String) (value : Node) (es : Entries) : Entries :=
  es.map fun e => if e.1 == key then (key, value) else e

/-! ## Reading values -/

namespace Node

/-- The text of a string. -/
def string? : Node → Option String
  | scalar (.string s) => some s
  | _ => none

/-- The value of an integer. -/
def integer? : Node → Option Int
  | scalar (.integer n) => some n
  | _ => none

/-- The value of a Boolean. -/
def boolean? : Node → Option Bool
  | scalar (.boolean b) => some b
  | _ => none

/-- The character that a string consists of. -/
def char? : Node → Option Char
  | scalar (.string s) =>
    match s.toList with
    | [c] => some c
    | _ => none
  | _ => none

/-- The items of an array of either kind. -/
def items? : Node → Option (List Node)
  | array items => some items
  | tables items => some items
  | _ => none

/-- Does the array or table hold nothing? -/
def isVoid : Node → Bool
  | array items => items.isEmpty
  | tables items => items.isEmpty
  | table _ entries => entries.isEmpty
  | scalar _ => false

end Node

end Highlighting.Toml

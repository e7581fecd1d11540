/-!
# Kinds of token

Every run of a highlighted line carries the number of one of these kinds.  Numbers and names each
determine the kind:

    ofId? k.id = some k        (ofId?_id)
    ofName? k.name = some k    (ofName?_name)
-/

namespace Highlighting

/-- What a piece of a line is. -/
inductive TokenKind
  | default
  | comment
  | string
  | char
  | number
  | keyword
  | type
  | function
  | operator
  | punctuation
  | preprocessor
  | macroCall
  | constant
  | special
  | decorator
  | lifetime
  | heading
  deriving Repr, DecidableEq

namespace TokenKind

/-- All kinds, in the order of their numbers. -/
def all : List TokenKind :=
  [default, comment, string, char, number, keyword, type, function, operator, punctuation,
    preprocessor, macroCall, constant, special, decorator, lifetime, heading]

/-- The number that runs of this kind carry. -/
def id (k : TokenKind) : Nat :=
  all.idxOf k

/-- The kind with a number. -/
def ofId? (n : Nat) : Option TokenKind :=
  all[n]?

/-- The name of the kind in a language definition. -/
def name : TokenKind → String
  | default => "Default"
  | comment => "Comment"
  | string => "String"
  | char => "Char"
  | number => "Number"
  | keyword => "Keyword"
  | type => "Type"
  | function => "Function"
  | operator => "Operator"
  | punctuation => "Punctuation"
  | preprocessor => "Preprocessor"
  | macroCall => "Macro"
  | constant => "Constant"
  | special => "Special"
  | decorator => "Attribute"
  | lifetime => "Lifetime"
  | heading => "Heading"

/-- The kind with a name, spelled exactly so. -/
def ofName? (s : String) : Option TokenKind :=
  all.find? (·.name == s)

/-! ## Lemmas -/

theorem ofId?_id (k : TokenKind) : ofId? k.id = some k := by
  cases k <;> rfl

theorem ofName?_name (k : TokenKind) : ofName? k.name = some k := by
  cases k <;> decide +kernel

end TokenKind

end Highlighting

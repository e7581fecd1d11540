/-!
# Reading a text from the front

Each reader takes what it can from the front of a text and gives the rest.  `Reading` tells a text
that is something else from one that begins as it should and goes wrong: nothing else is tried on
the latter.
-/

namespace Highlighting.Toml

/-- What a reader makes of the front of a text. -/
inductive Reading (α : Type)
  /-- It is something else. -/
  | other
  /-- It goes wrong. -/
  | wrong
  /-- The value, and the text after it. -/
  | read (value : α) (rest : List Char)

namespace Reading

/-- The first reading that is not of something else. -/
def orElse {α : Type} : Reading α → (Unit → Reading α) → Reading α
  | other, next => next ()
  | r, _ => r

/-- Goes on after a reading. -/
def bind {α β : Type} : Reading α → (α → List Char → Reading β) → Reading β
  | other, _ => other
  | wrong, _ => wrong
  | read a rest, f => f a rest

/-- Once this has been reached, anything else is wrong. -/
def commit {α : Type} : Reading α → Reading α
  | other => wrong
  | r => r

/-- The value and the rest, if there are any. -/
def toOption {α : Type} : Reading α → Option (α × List Char)
  | read a rest => some (a, rest)
  | _ => none

end Reading

/-! ## White space -/

/-- Is it a space or a tab? -/
def isSpace (c : Char) : Bool :=
  c == ' ' || c == '\t'

/-- The text after spaces and tabs. -/
def skipSpaces (cs : List Char) : List Char :=
  cs.dropWhile isSpace

/-- The text after a newline. -/
def newline? : List Char → Option (List Char)
  | '\n' :: cs => some cs
  | '\r' :: '\n' :: cs => some cs
  | _ => none

/-- May the character stand in a comment or a string? -/
def isVisible (c : Char) : Bool :=
  c == '\t' || (' ' ≤ c && c != '\x7f')

/-- The text after a comment, if there is one. -/
def skipComment : List Char → List Char
  | '#' :: cs => cs.dropWhile isVisible
  | cs => cs

/-- The text after spaces, tabs and newlines. -/
def skipBlank : List Char → List Char
  | ' ' :: cs => skipBlank cs
  | '\t' :: cs => skipBlank cs
  | '\n' :: cs => skipBlank cs
  | '\r' :: '\n' :: cs => skipBlank cs
  | cs => cs

/-- The text after spaces, tabs, newlines and comments, in so many rounds. -/
def skipFiller : (rounds : Nat) → List Char → List Char
  | 0, cs => cs
  | rounds + 1, cs =>
    match skipBlank cs with
    | '#' :: rest => skipFiller rounds (skipComment ('#' :: rest))
    | rest => rest

/-- The text after the end of a line: a comment, a newline or the end of the text. -/
def lineEnd? (cs : List Char) : Option (List Char) :=
  match skipComment (skipSpaces cs) with
  | [] => some []
  | rest => newline? rest

/-! ## Repeated readers -/

/-- What a reader takes again and again until it takes no more, in so many rounds. -/
def many {α : Type} (item : List Char → Option (α × List Char)) :
    (rounds : Nat) → List Char → List α × List Char
  | 0, cs => ([], cs)
  | rounds + 1, cs =>
    match item cs with
    | none => ([], cs)
    | some (a, rest) =>
      let (as, rest) := many item rounds rest
      (a :: as, rest)

end Highlighting.Toml

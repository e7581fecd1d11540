import Highlighting.Line
import Highlighting.Refusal
import Highlighting.Text.Newlines

/-!
# Lines under transactions

A store holds the lines of a text, at least one.  Lines are edited inside a transaction, and
transactions nest.  From the outermost start on, the store notes the first and the last line that
was changed, by the numbers the lines have after all edits so far.

    a refused edit gives no store, so the one there was stays as it is
-/

namespace Highlighting

/-- The lines of a text, and what the present or last transaction changed. -/
structure TextStore where
  lines : Array Line
  /-- How many transactions are open. -/
  depth : Nat
  /-- Has the transaction changed anything? -/
  changed : Bool
  /-- The first line changed. -/
  first : Option Nat
  /-- The last line changed. -/
  last : Option Nat
  /-- How often the text has been changed. -/
  revision : Nat
  deriving Repr, DecidableEq

namespace TextStore

/-- One empty line. -/
def empty : TextStore :=
  ⟨#[.blank], 0, false, none, none, 0⟩

/-- The text with newlines between the lines. -/
def text (t : TextStore) : String :=
  Text.joinNewlines (t.lines.toList.map (·.text))

/-- Is a transaction open? -/
def editing (t : TextStore) : Bool :=
  0 < t.depth

/-- The line of a number. -/
def line (t : TextStore) (n : Nat) : Except Refusal Line :=
  match t.lines[n]? with
  | some l => .ok l
  | none => .error (.noLine n)

/-! ## The whole text -/

/-- Replaces the text.  This is no part of a transaction. -/
def setText (t : TextStore) (s : String) : TextStore :=
  { t with lines := ((Text.linesOf s).map Line.ofText).toArray, revision := t.revision + 1 }

/-- Leaves one empty line. -/
def clear (t : TextStore) : TextStore :=
  { t with lines := #[.blank], revision := t.revision + 1 }

/-! ## Transactions -/

/-- Opens a transaction; says whether it is the outermost. -/
def start (t : TextStore) : Bool × TextStore :=
  if t.depth = 0 then (true, { t with depth := 1, changed := false, first := none, last := none })
  else (false, { t with depth := t.depth + 1 })

/-- Closes a transaction; says whether it was the outermost. -/
def finish (t : TextStore) : Bool × TextStore :=
  if t.depth = 0 then (false, t) else (t.depth = 1, { t with depth := t.depth - 1 })

/-- Notes a change: from line `first` on, and to line `last` at most so far. -/
def note (t : TextStore) (first last : Nat) : TextStore :=
  { t with
    changed := true
    first := some (match t.first with | some n => min n first | none => first)
    last := some last
    revision := t.revision + 1 }

/-- The last changed line once line `n` has been changed as well. -/
def lastWith (t : TextStore) (n : Nat) : Nat :=
  match t.last with
  | some last => max last n
  | none => n

/-! ## Edits -/

/-- Inserts a text without newlines.  Inserting nothing changes nothing and looks at no line. -/
def insert (t : TextStore) (n col : Nat) (s : String) : Except Refusal TextStore := do
  if !t.editing then throw .notEditing
  if s.contains '\n' then throw .newline
  if s.isEmpty then return t
  let l ← t.line n
  match l.insert? col s with
  | none => throw .noBoundary
  | some l => return { t with lines := t.lines.setIfInBounds n l }.note n (t.lastWith n)

/-- Removes the bytes from `start` to `stop` of a line, and gives the text that was there. -/
def remove (t : TextStore) (n start stop : Nat) : Except Refusal (String × TextStore) := do
  if !t.editing then throw .notEditing
  if stop < start then throw (.invertedColumns start stop)
  if start = stop then return ("", t)
  let l ← t.line n
  match l.delete? start stop with
  | none => throw .noBoundary
  | some (removed, l) =>
    return (removed, { t with lines := t.lines.setIfInBounds n l }.note n (t.lastWith n))

/-- Splits a line; what stood after `col` becomes the next line. -/
def wrap (t : TextStore) (n col : Nat) : Except Refusal TextStore := do
  if !t.editing then throw .notEditing
  let l ← t.line n
  match l.splitOff? col with
  | none => throw .noBoundary
  | some (a, b) =>
    let last := match t.last with
      | some last => if n ≤ last then last + 1 else n + 1
      | none => n + 1
    return { t with
      lines := t.lines.extract 0 n ++ #[a, b] ++ t.lines.extract (n + 1) }.note n last

/-- Joins a line to the one before it. -/
def unwrap (t : TextStore) (n : Nat) : Except Refusal TextStore := do
  if !t.editing then throw .notEditing
  match n, t.lines[n]?, t.lines[n - 1]? with
  | n + 1, some b, some a =>
    let last := match t.last with
      | some last => if n + 1 ≤ last then last - 1 else n
      | none => n
    return { t with
      lines := t.lines.extract 0 n ++ #[a.append b] ++ t.lines.extract (n + 2) }.note n last
  | _, _, _ => throw (.notJoinable n t.lines.size)

end TextStore

end Highlighting

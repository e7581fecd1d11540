/-!
# Refused operations

An operation on a text that is called outside its contract is refused and leaves the text as it
was.  Most refusals have a wording; a column at which a line cannot be cut has none of its own, and
neither has a sum that does not fit.
-/

namespace Highlighting

/-- Why an operation was refused. -/
inductive Refusal
  /-- There is no such line. -/
  | noLine (line : Nat)
  /-- No transaction is open. -/
  | notEditing
  /-- The text to insert holds a newline. -/
  | newline
  /-- The end of a range of columns lies before its start. -/
  | invertedColumns (start stop : Nat)
  /-- The last line of a range lies before its first. -/
  | invertedLines (first last : Nat)
  /-- The line has no line before it to be joined to. -/
  | notJoinable (line count : Nat)
  /-- The column lies past the end of the line or inside a character. -/
  | noBoundary
  /-- A transaction changed lines but does not know which. -/
  | unknownChange
  /-- The last changed line lies before the first. -/
  | invertedChange (first last : Nat)
  /-- A line number is too large to be computed. -/
  | overflow
  deriving Repr, DecidableEq

/-- The wording of a refusal, if it has one. -/
def Refusal.message? : Refusal → Option String
  | noLine line => some s!"line {line} out of range"
  | notEditing => some "buffer modified outside of a transaction"
  | newline => some "insert_text cannot insert newlines"
  | invertedColumns start stop => some s!"invalid range {start}..{stop}"
  | invertedLines first last => some s!"invalid line range {first}..={last}"
  | notJoinable line count => some s!"cannot unwrap line {line} of {count}"
  | noBoundary => none
  | unknownChange => some "changed buffer without a changed line range"
  | invertedChange first last => some s!"changed line range {first}..={last} is inverted"
  | overflow => none

end Highlighting

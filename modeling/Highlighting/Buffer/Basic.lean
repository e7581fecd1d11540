import Highlighting.Handle
import Highlighting.Shared
import Highlighting.Text.Store

/-!
# Buffers

A buffer keeps the lines of a text highlighted as far as they have been asked for.  Its frontier
is the number of lines whose annotations are current; what lies past it is highlighted when it is
asked for, or when an edit touches the highlighted part.

Before it relies on its frontier, a buffer answers a pending rebuild: the frontier falls to 0 and
an event says so.
-/

namespace Highlighting

/-- What a buffer tells those who show it. -/
inductive Event
  /-- The annotations of these lines may have changed. -/
  | linesChanged (first last : Nat)
  /-- The spelling of these lines is to be checked again. -/
  | respell (first last : Nat)
  /-- Another definition is in use. -/
  | definition (name : String)
  /-- A reset of the contexts has invalidated the highlighting. -/
  | rebuilt
  deriving Repr, DecidableEq

/-- A text with its highlighting. -/
structure Buffer where
  store : TextStore
  handle : Option Handle
  /-- Lines before this one are highlighted. -/
  frontier : Nat
  /-- With so many contexts in use, a reset is asked for. -/
  limit : Nat
  tabWidth : Nat
  /-- How many more lines a search for a region highlights at each step. -/
  lookahead : Nat
  indentation : Option String
  slot : Nat
  /-- Events that have not been taken, oldest first. -/
  events : List Event
  deriving Repr, DecidableEq

/-- What an operation on a buffer leaves behind. -/
structure Outcome (α : Type) where
  result : Except Refusal α
  buffer : Buffer
  shared : Shared

namespace Buffer

/-- An empty buffer. -/
def create (limit tabWidth lookahead : Nat) (s : Shared) : Buffer × Shared :=
  let (slot, s) := s.register
  (⟨.empty, none, 0, max limit 1, tabWidth, lookahead, none, slot, []⟩, s)

/-- How many lines there are. -/
def lineCount (b : Buffer) : Nat :=
  b.store.lines.size

/-- How many lines are highlighted: none while a rebuild is pending. -/
def highlightedUpTo (b : Buffer) (s : Shared) : Nat :=
  if s.pending b.slot then 0 else b.frontier

/-- Adds an event. -/
def emit (b : Buffer) (e : Event) : Buffer :=
  { b with events := b.events ++ [e] }

/-- Forgets all highlighting; it is made again when it is asked for. -/
def invalidate (b : Buffer) : Buffer :=
  { b with frontier := 0 }

/-- Answers a pending rebuild. -/
def sync (b : Buffer) (s : Shared) : Buffer × Shared :=
  let (pending, s) := s.takeRebuild b.slot
  (if pending then b.invalidate.emit .rebuilt else b, s)

/-- The events that have not been taken. -/
def takeEvents (b : Buffer) (s : Shared) : List Event × Buffer × Shared :=
  let (b, s) := b.sync s
  (b.events, { b with events := [] }, s)

/-- Replaces the text. -/
def setText (b : Buffer) (text : String) : Buffer :=
  { b with store := b.store.setText text }.invalidate

/-- Leaves one empty line. -/
def clear (b : Buffer) : Buffer :=
  { b with store := b.store.clear }.invalidate

end Buffer

end Highlighting

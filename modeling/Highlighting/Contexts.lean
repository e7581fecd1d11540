import Highlighting.Pattern.Basic

/-!
# Contexts made while scanning

A construct whose end depends on its beginning makes the pattern of its end when it opens.  The
pattern is kept in a table that all buffers share, and a line remembers its number.  Equal patterns
have one number, and a number is given once: after the table has been emptied, an old number
resolves to nothing.

    an emptied table resolves no number      (resolve_emptied)
-/

namespace Highlighting

/-- The table of contexts. -/
structure Contexts where
  /-- Numbers and patterns in use, the latest first. -/
  live : List (Nat × Pattern)
  /-- The next number to be given. -/
  nextId : Nat
  deriving Repr, DecidableEq

namespace Contexts

/-! ## Algorithm -/

/-- No context yet. -/
def fresh : Contexts :=
  ⟨[], 0⟩

/-- How many contexts are in use. -/
def size (t : Contexts) : Nat :=
  t.live.length

/-- The pattern of a context that is in use. -/
def resolve (t : Contexts) (id : Nat) : Option Pattern :=
  t.live.lookup id

/-- The number of the context with this source, if it is in use. -/
def idOf? (t : Contexts) (source : String) : Option Nat :=
  (t.live.find? fun entry => entry.2.source == source).map (·.1)

/-- The number of the context with this source, which is made unless it is in use.  A source that
is no pattern gets no number and leaves the table as it was. -/
def intern (t : Contexts) (source : String) : Option Nat × Contexts :=
  match t.idOf? source with
  | some id => (some id, t)
  | none =>
    match Pattern.compile source with
    | .error _ => (none, t)
    | .ok p => (some t.nextId, ⟨(t.nextId, p) :: t.live, t.nextId + 1⟩)

/-- Forgets every context, but not which numbers have been given. -/
def emptied (t : Contexts) : Contexts :=
  { t with live := [] }

/-! ## Lemmas -/

@[simp] theorem size_emptied (t : Contexts) : t.emptied.size = 0 := rfl

@[simp] theorem resolve_emptied (t : Contexts) (id : Nat) : t.emptied.resolve id = none := rfl

end Contexts

end Highlighting

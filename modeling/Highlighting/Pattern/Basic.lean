import Highlighting.Pattern.Parser
import Highlighting.Pattern.Match

/-!
# Patterns

A pattern is its text together with what the text says.  It is searched for in a text from a place
on, and what it finds lies at or after that place:

    p.find c = some m        →  m begins at or after c            (find_start)
                                and ends at or after its start    (find_stop)
    p.findFilled c = some m  →  moreover m holds a character      (findFilled_ahead)
-/

namespace Highlighting

open Text (Cursor Ahead)

/-- A pattern that has been read. -/
structure Pattern where
  /-- The text it was read from. -/
  source : String
  expr : Expr
  deriving Repr, DecidableEq

namespace Pattern

/-! ## Algorithm -/

/-- Reads a pattern from its text. -/
def compile (source : String) : Except Flaw Pattern := do
  return ⟨source, ← parse source⟩

/-- A pattern that matches the text and nothing else: a backslash before every character that has
a meaning. -/
def escaped (s : String) : String :=
  String.ofList (s.toList.flatMap fun c => if isMeta c then ['\\', c] else [c])

/-- The leftmost match at or after a place. -/
def find (p : Pattern) (c : Cursor) : Option Match :=
  p.expr.findFrom c

/-- The leftmost match at or after a place before the end, if that match holds a character. -/
def findFilled (p : Pattern) (c : Cursor) : Option Match :=
  if c.atEnd then none else (p.find c).filter (·.filled)

/-! ## Lemmas -/

theorem compile_source {source : String} {p : Pattern} (h : compile source = .ok p) :
    p.source = source := by
  unfold compile at h
  cases hp : parse source with
  | error e => rw [hp] at h; cases h
  | ok e => rw [hp] at h; cases h; rfl

theorem find_start {p : Pattern} {c : Cursor} {m : Match} (h : p.find c = some m) :
    Ahead c m.start :=
  Expr.findFrom_start h

theorem find_stop {p : Pattern} {c : Cursor} {m : Match} (h : p.find c = some m) :
    Ahead m.start m.stop :=
  Expr.findFrom_stop h

theorem find_again {p : Pattern} {c : Cursor} {m : Match} (h : p.find c = some m) :
    p.find m.start = some m :=
  Expr.findFrom_again h

theorem find_of_findFilled {p : Pattern} {c : Cursor} {m : Match} (h : p.findFilled c = some m) :
    p.find c = some m ∧ m.filled = true := by
  unfold findFilled at h
  split at h
  · cases h
  · exact Option.filter_eq_some_iff.1 h

theorem findFilled_ahead {p : Pattern} {c : Cursor} {m : Match} (h : p.findFilled c = some m) :
    Ahead c m.start ∧ Ahead m.start m.stop ∧ m.start.offset < m.stop.offset := by
  obtain ⟨hf, hm⟩ := find_of_findFilled h
  exact ⟨find_start hf, find_stop hf, by simpa [Span.filled] using hm⟩

/-- A filled match leaves less text than there was. -/
theorem findFilled_stop {p : Pattern} {c : Cursor} {m : Match} (h : p.findFilled c = some m) :
    m.stop.rest.length < c.rest.length := by
  obtain ⟨hcm, hmm, hlt⟩ := findFilled_ahead h
  have h₁ := hcm.length_le
  have h₂ := hmm.length_lt hlt
  omega

end Pattern

end Highlighting

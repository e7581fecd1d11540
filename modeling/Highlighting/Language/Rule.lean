import Highlighting.Error
import Highlighting.Contexts
import Highlighting.Line

/-!
# Rules of a language

A `TokenRule` marks what its pattern matches within a line.  A `Construct` may go on over several
lines: it opens where its start matches and closes where its end matches, unless that end is
escaped.

    r.find c = some m        →  m.stop has less text after it than c      (Pattern.findFilled_stop)
    k.findEnd p c = some m   →  c, m.start and m.stop lie in this order   (findEnd_ahead)
-/

namespace Highlighting

open Text (Cursor Ahead)

/-- Marks what a pattern matches within a line. -/
structure TokenRule where
  name : String
  pattern : Pattern
  kind : TokenKind
  /-- Of two rules that match at one place, the one with the higher priority wins. -/
  priority : Int
  /-- The value of the marker put at each match, 0 for none. -/
  fold : Int
  deriving Repr, DecidableEq

/-- How a construct ends. -/
inductive Ending
  /-- Where a pattern matches. -/
  | fixed (p : Pattern)
  /-- Where a pattern matches that is made from this template and the text that the start
  captured. -/
  | derived (template : String)
  deriving Repr, DecidableEq

/-- What opens at one place and closes at another, perhaps lines later. -/
structure Construct where
  name : String
  start : Pattern
  ending : Ending
  kind : TokenKind
  /-- An odd number of these before an end makes it no end. -/
  escape : Option Char
  /-- The number by which a line remembers that the construct is open. -/
  id : Nat
  /-- The type of the region from start to end, 0 for none. -/
  region : Int
  deriving Repr, DecidableEq

/-! ## Making rules -/

/-- Reads a pattern on behalf of a rule. -/
def compileFor (rule source : String) : Except Error Pattern :=
  match Pattern.compile source with
  | .ok p => .ok p
  | .error flaw => .error (.flawedRule rule flaw)

/-- A rule without a marker. -/
def TokenRule.make (name source : String) (kind : TokenKind) (priority : Int) :
    Except Error TokenRule := do
  return ⟨name, ← compileFor name source, kind, priority, 0⟩

/-- The rule with a marker at each match. -/
def TokenRule.withFold (r : TokenRule) (value : Int) : TokenRule :=
  { r with fold := value }

/-- Does the template hold a placeholder? -/
def hasPlaceholder : List Char → Bool
  | [] => false
  | '%' :: '1' :: _ => true
  | _ :: cs => hasPlaceholder cs

/-- The template with `filling` in place of each placeholder. -/
def fillChars (filling : List Char) : List Char → List Char
  | [] => []
  | '%' :: '1' :: cs => filling ++ fillChars filling cs
  | c :: cs => c :: fillChars filling cs

/-- The template with `filling` in place of each placeholder. -/
def fill (template filling : String) : String :=
  String.ofList (fillChars filling.toList template.toList)

namespace Construct

/-- A construct with a fixed end, without an escape and without a region. -/
def makeFixed (name start stop : String) (kind : TokenKind) (id : Nat) :
    Except Error Construct := do
  let start ← compileFor name start
  let stop ← compileFor name stop
  return ⟨name, start, .fixed stop, kind, none, id, 0⟩

/-- A construct whose end is made from a template.  The template must have a place for what the
start captures, and be a pattern once something stands there. -/
def makeDerived (name start template : String) (kind : TokenKind) (id : Nat) :
    Except Error Construct := do
  if hasPlaceholder template.toList then
    let _ ← compileFor name (fill template "x")
    let start ← compileFor name start
    return ⟨name, start, .derived template, kind, none, id, 0⟩
  else throw (.noPlaceholder name)

/-- The construct with ends that can be escaped. -/
def withEscape (k : Construct) (c : Char) : Construct :=
  { k with escape := some c }

/-- The construct as a region of a type, whichever way the value points. -/
def withFold (k : Construct) (value : Int) : Construct :=
  { k with region := value.natAbs }

/-- Is the end made on the spot? -/
def isDerived (k : Construct) : Bool :=
  match k.ending with
  | .fixed _ => false
  | .derived _ => true

end Construct

/-- What succeeds after another step has that step succeed first. -/
theorem exists_of_bind_ok {ε α β : Type} {x : Except ε α} {f : α → Except ε β} {b : β}
    (h : x >>= f = .ok b) : ∃ a, x = .ok a ∧ f a = .ok b := by
  cases x with
  | error e => cases h
  | ok a => exact ⟨a, rfl, h⟩

/-! ## Searching -/

/-- The first match at or after a place that holds a character. -/
def TokenRule.find (r : TokenRule) (c : Cursor) : Option Match :=
  r.pattern.findFilled c

namespace Construct

/-- The first start at or after a place. -/
def findStart (k : Construct) (c : Cursor) : Option Match :=
  k.start.findFilled c

/-- The text that the start captured: its first group, or all of it. -/
def captured (m : Match) : String :=
  String.ofList ((m.group? 1).getD m.toSpan).chars

/-- The state after the construct has opened at a place, with the context of its end. -/
def openState (k : Construct) (c : Cursor) (t : Contexts) : LineState × Contexts :=
  match k.ending with
  | .fixed _ => (⟨k.id, none⟩, t)
  | .derived template =>
    match k.start.find c with
    | none => (⟨k.id, none⟩, t)
    | some m =>
      let (id, t) := t.intern (fill template (Pattern.escaped (captured m)))
      (⟨k.id, id⟩, t)

/-- The pattern that ends the construct in a state; none when the context is gone. -/
def endPattern? (k : Construct) (s : LineState) (t : Contexts) : Option Pattern :=
  match k.ending with
  | .fixed p => some p
  | .derived _ => s.context.bind t.resolve

/-- Does an odd number of escapes stand between `origin` and the place, next to the place? -/
def isEscaped (escape : Option Char) (origin place : Cursor) : Bool :=
  match escape with
  | none => false
  | some e => ((origin.upTo place).reverse.takeWhile (· == e)).length % 2 == 1

/-- The first place after a match from which another can be found. -/
def afterMatch (m : Match) : Option Cursor :=
  if m.filled then some m.stop else m.start.next?

theorem afterMatch_length {p : Pattern} {c d : Cursor} {m : Match} (hf : p.find c = some m)
    (hd : afterMatch m = some d) : Ahead c d ∧ d.rest.length < c.rest.length := by
  have hs := Pattern.find_start hf
  have he := Pattern.find_stop hf
  unfold afterMatch at hd
  split at hd
  · next hfill =>
    cases hd
    have := hs.length_le
    have := he.length_lt (by simpa [Span.filled] using hfill)
    exact ⟨hs.trans he, by omega⟩
  · have := hs.length_le
    have := Cursor.next?_length hd
    exact ⟨.step hs hd, by omega⟩

/-- The first match at or after a place whose start is not escaped; escapes before `origin` do not
count. -/
def findUnescaped (escape : Option Char) (p : Pattern) (origin c : Cursor) : Option Match :=
  match _hf : p.find c with
  | none => none
  | some m =>
    if isEscaped escape origin m.start then
      match _hd : afterMatch m with
      | none => none
      | some d => findUnescaped escape p origin d
    else some m
termination_by c.rest.length
decreasing_by exact (afterMatch_length _hf _hd).2

/-- The end of the construct at or after a place. -/
def findEnd (k : Construct) (p : Pattern) (c : Cursor) : Option Match :=
  findUnescaped k.escape p c c

theorem findUnescaped_ahead {escape : Option Char} {p : Pattern} {origin c : Cursor} {m : Match}
    (h : findUnescaped escape p origin c = some m) : Ahead c m.start ∧ Ahead m.start m.stop := by
  fun_induction findUnescaped escape p origin c with
  | case1 => cases h
  | case2 => cases h
  | case3 c n hf _ d hd ih => exact ⟨(afterMatch_length hf hd).1.trans (ih h).1, (ih h).2⟩
  | case4 c n hf => cases h; exact ⟨Pattern.find_start hf, Pattern.find_stop hf⟩

theorem findEnd_ahead {k : Construct} {p : Pattern} {c : Cursor} {m : Match}
    (h : k.findEnd p c = some m) : Ahead c m.start ∧ Ahead m.start m.stop :=
  findUnescaped_ahead h

/-- So does the end of a construct that has opened on the line, if its pattern is known. -/
theorem bind_findEnd_ahead {k : Construct} {p : Option Pattern} {c : Cursor} {m : Match}
    (h : p.bind (k.findEnd · c) = some m) : Ahead c m.start ∧ Ahead m.start m.stop := by
  obtain ⟨p, -, hm⟩ := Option.bind_eq_some_iff.1 h
  exact findEnd_ahead hm

end Construct

end Highlighting

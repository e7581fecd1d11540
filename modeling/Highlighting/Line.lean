import Highlighting.Token
import Highlighting.Text.Bytes

/-!
# A line and its annotations

A line holds its text and what highlighting left on it: runs of one kind, fold markers, and the
state in which the scan left the line.  Edits change the text alone; the annotations are those of
the last highlighting until the next one.

    cutting a line and joining the two parts gives the line back          (splitOff_append)
    joining two lines and cutting there gives their texts back            (append_splitOff?)
    what was inserted can be deleted, and what was deleted be inserted
                                                       (insert?_delete?, delete?_insert?)
-/

namespace Highlighting

/-- A stretch of a line that is of one kind. -/
structure Run where
  /-- Byte offset of its first character. -/
  offset : Nat
  /-- Its length in bytes. -/
  length : Nat
  /-- The number of its kind. -/
  kind : Nat
  deriving Repr, DecidableEq

/-- Byte offset of the end of the run. -/
def Run.stop (r : Run) : Nat :=
  r.offset + r.length

/-- A place where a region of text opens or closes.  A positive value opens a region of that type,
a negative value closes one of the opposite type. -/
structure Marker where
  offset : Nat
  value : Int
  deriving Repr, DecidableEq

namespace Marker

/-- Does the marker open a region? -/
def opens (m : Marker) : Bool :=
  0 < m.value

/-- Does the marker close a region? -/
def closes (m : Marker) : Bool :=
  m.value < 0

/-- The type of the region, whichever way the marker points. -/
def region (m : Marker) : Int :=
  m.value.natAbs

end Marker

/-- How a scan stands between two lines. -/
structure LineState where
  /-- The number of the construct that is open, 0 when none is. -/
  construct : Nat
  /-- The context that holds the end of the construct, when its end was made on the spot. -/
  context : Option Nat
  deriving Repr, DecidableEq

namespace LineState

/-- No construct is open. -/
def normal : LineState :=
  ⟨0, none⟩

/-- Is a construct open? -/
def isInside (s : LineState) : Bool :=
  s.construct != 0

end LineState

/-- What highlighting finds on a line. -/
structure Highlight where
  runs : List Run
  markers : List Marker
  endState : LineState
  deriving Repr, DecidableEq

/-- Nothing found, and no construct open. -/
def Highlight.blank : Highlight :=
  ⟨[], [], .normal⟩

/-- A line of a text. -/
structure Line where
  /-- The characters of the line, without a newline. -/
  text : String
  /-- What the last highlighting found. -/
  highlight : Highlight
  /-- Did the last highlighting change the state at the end of the line? -/
  changed : Bool
  deriving Repr, DecidableEq

namespace Line

/-! ## Algorithm -/

/-- A line that has not been highlighted. -/
def ofText (s : String) : Line :=
  ⟨s, .blank, false⟩

/-- The line with nothing on it. -/
def blank : Line :=
  ofText ""

/-- Length in bytes. -/
def size (l : Line) : Nat :=
  l.text.utf8ByteSize

/-- The state in which the last highlighting left the line. -/
def endState (l : Line) : LineState :=
  l.highlight.endState

/-- The line with new annotations. -/
def annotate (l : Line) (h : Highlight) : Line :=
  { l with highlight := h, changed := l.endState != h.endState }

/-- Puts `s` in at byte `col`, if the line can be cut there. -/
def insert? (l : Line) (col : Nat) (s : String) : Option Line :=
  (Text.cut? l.text col).map fun (a, b) => { l with text := a ++ s ++ b }

/-- Takes the bytes from `start` to `stop` out: what they were, and what is left. -/
def delete? (l : Line) (start stop : Nat) : Option (String × Line) :=
  (Text.cutRange? l.text start stop).map fun (a, removed, b) =>
    (removed, { l with text := a ++ b })

/-- Cuts the line at byte `col`.  The first part keeps the annotations, the second has none. -/
def splitOff? (l : Line) (col : Nat) : Option (Line × Line) :=
  (Text.cut? l.text col).map fun (a, b) => ({ l with text := a }, ofText b)

/-- Joins the text of another line to this one. -/
def append (l other : Line) : Line :=
  { l with text := l.text ++ other.text }

/-! ## Lemmas -/

theorem splitOff_append {l a b : Line} {col : Nat} (h : l.splitOff? col = some (a, b)) :
    a.append b = l := by
  obtain ⟨⟨x, y⟩, hxy, heq⟩ := Option.map_eq_some_iff.1 h
  simp only [Prod.mk.injEq] at heq
  rw [← heq.1, ← heq.2]
  simp only [append, ofText, ← Text.cut?_append hxy]

/-- Joined lines can be cut where they were joined; only the first still has annotations. -/
theorem append_splitOff? (a b : Line) :
    (a.append b).splitOff? a.size = some (a, ofText b.text) := by
  have hcut : Text.cut? (a.text ++ b.text) a.text.utf8ByteSize = some (a.text, b.text) :=
    Text.cut?_eq_some_iff.2 ⟨rfl, rfl⟩
  simp only [splitOff?, append, size, hcut, Option.map_some]

theorem insert?_empty {l x : Line} {col : Nat} (h : l.insert? col "" = some x) : x = l := by
  obtain ⟨⟨a, b⟩, hcut, rfl⟩ := Option.map_eq_some_iff.1 h
  simp only [String.append_empty, ← Text.cut?_append hcut]

theorem delete?_nothing {l x : Line} {col : Nat} {removed : String}
    (h : l.delete? col col = some (removed, x)) : removed = "" ∧ x = l := by
  obtain ⟨⟨a, s, b⟩, hrange, heq⟩ := Option.map_eq_some_iff.1 h
  obtain ⟨rfl, rfl⟩ := Prod.mk.inj heq
  obtain ⟨hl, -, hsize⟩ := Text.cutRange?_eq_some_iff.1 hrange
  obtain rfl : s = "" := String.utf8ByteSize_eq_zero_iff.1 (by omega)
  rw [String.append_empty] at hl
  exact ⟨rfl, by simp only [← hl]⟩

theorem insert?_delete? {l x : Line} {col : Nat} {s : String} (h : l.insert? col s = some x) :
    x.delete? col (col + s.utf8ByteSize) = some (s, l) := by
  obtain ⟨⟨a, b⟩, hcut, rfl⟩ := Option.map_eq_some_iff.1 h
  obtain ⟨hl, hcol⟩ := Text.cut?_eq_some_iff.1 hcut
  have hrange : Text.cutRange? (a ++ s ++ b) col (col + s.utf8ByteSize) = some (a, s, b) :=
    Text.cutRange?_eq_some_iff.2 ⟨rfl, hcol, rfl⟩
  simp only [delete?, hrange, Option.map_some, ← hl]

theorem delete?_insert? {l x : Line} {start stop : Nat} {removed : String}
    (h : l.delete? start stop = some (removed, x)) : x.insert? start removed = some l := by
  obtain ⟨⟨a, s, b⟩, hrange, heq⟩ := Option.map_eq_some_iff.1 h
  obtain ⟨rfl, rfl⟩ := Prod.mk.inj heq
  obtain ⟨hl, hstart, -⟩ := Text.cutRange?_eq_some_iff.1 hrange
  have hcut : Text.cut? (a ++ b) start = some (a, b) := Text.cut?_eq_some_iff.2 ⟨rfl, hstart⟩
  simp only [insert?, hcut, Option.map_some, ← hl]

end Line

end Highlighting

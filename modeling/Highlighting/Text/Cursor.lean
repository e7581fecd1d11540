import Highlighting.Text.Bytes

/-!
# Places in a text

A cursor stands between two characters: it knows its byte offset, the character before it and
everything after it.  Cursors move forward only, so each place reached from another lies on a
character boundary at or after it:

    Ahead c d     d is c, or c moved forward some characters
    Ahead c d  →  d.rest.length ≤ c.rest.length    (Ahead.length_le)
    Ahead c d  →  c.offset ≤ d.offset              (Ahead.offset_le)
    Ahead c d  →  c and d have one end             (Ahead.endOffset_eq)
-/

namespace Highlighting.Text

/-- A place in a text. -/
structure Cursor where
  /-- Bytes before the place. -/
  offset : Nat
  /-- The character before it, if it is not the start of the text. -/
  before : Option Char
  /-- The characters after it. -/
  rest : List Char
  deriving Repr, DecidableEq

/-! ## Algorithm -/

namespace Cursor

/-- The start of a text. -/
def ofChars (cs : List Char) : Cursor :=
  ⟨0, none, cs⟩

/-- The start of a text. -/
def ofString (s : String) : Cursor :=
  ofChars s.toList

/-- Past the next character, which is `c`. -/
def past (k : Cursor) (c : Char) (cs : List Char) : Cursor :=
  ⟨k.offset + c.utf8Size, some c, cs⟩

/-- One character further, unless this is the end. -/
def next? (k : Cursor) : Option Cursor :=
  match k.rest with
  | [] => none
  | c :: cs => some (k.past c cs)

/-- Is this the end of the text? -/
def atEnd (k : Cursor) : Bool :=
  k.rest.isEmpty

/-- Byte offset of the end of the text. -/
def endOffset (k : Cursor) : Nat :=
  k.offset + byteLength k.rest

/-- The first place at or after byte `n`, seen from a place before it. -/
def seekFrom (n offset : Nat) (before : Option Char) : List Char → Option Cursor
  | [] => if n ≤ offset then some ⟨offset, before, []⟩ else none
  | c :: cs =>
    if n ≤ offset then some ⟨offset, before, c :: cs⟩
    else seekFrom n (offset + c.utf8Size) (some c) cs

/-- The first place of `s` at or after byte `n`; none when `s` is shorter. -/
def seek? (s : String) (n : Nat) : Option Cursor :=
  seekFrom n 0 none s.toList

/-- The characters between a place and a later one. -/
def upTo (k later : Cursor) : List Char :=
  k.rest.take (k.rest.length - later.rest.length)

end Cursor

/-- `d` is `c` or lies some characters after it. -/
inductive Ahead (c : Cursor) : Cursor → Prop
  | here : Ahead c c
  | step {d e : Cursor} : Ahead c d → d.next? = some e → Ahead c e

/-! ## Lemmas -/

theorem Cursor.next?_eq_some {c d : Cursor} (h : c.next? = some d) :
    ∃ x xs, c.rest = x :: xs ∧ d = c.past x xs := by
  unfold Cursor.next? at h
  split at h
  · cases h
  · next x xs hr => exact ⟨x, xs, hr, (Option.some.inj h).symm⟩

theorem Cursor.next?_eq_none {c : Cursor} (h : c.next? = none) : c.rest = [] := by
  unfold Cursor.next? at h
  split at h
  · assumption
  · cases h

theorem Cursor.next?_endOffset {c d : Cursor} (h : c.next? = some d) :
    d.endOffset = c.endOffset := by
  obtain ⟨x, xs, hr, rfl⟩ := next?_eq_some h
  simp [endOffset, past, hr, byteLength, Nat.add_assoc]

theorem Cursor.next?_length {c d : Cursor} (h : c.next? = some d) :
    d.rest.length + 1 = c.rest.length := by
  obtain ⟨x, xs, hr, rfl⟩ := next?_eq_some h
  simp [hr, past]

theorem Cursor.next?_offset {c d : Cursor} (h : c.next? = some d) : c.offset < d.offset := by
  obtain ⟨x, xs, -, rfl⟩ := next?_eq_some h
  simp [past, Char.utf8Size_pos]

theorem Cursor.endOffset_ofString (s : String) : (ofString s).endOffset = s.utf8ByteSize := by
  simp [endOffset, ofString, ofChars]

theorem Cursor.atEnd_ofString {s : String} : (ofString s).atEnd = true ↔ s = "" := by
  simp [atEnd, ofString, ofChars]

theorem Cursor.offset_le_endOffset (c : Cursor) : c.offset ≤ c.endOffset :=
  Nat.le_add_right _ _

theorem Cursor.offset_lt_endOffset {c : Cursor} (h : ¬c.atEnd = true) :
    c.offset < c.endOffset := by
  cases hr : c.rest with
  | nil => exact absurd (by simp [atEnd, hr]) h
  | cons x xs =>
    have := x.utf8Size_pos
    simp only [endOffset, hr, byteLength]
    omega

namespace Ahead

theorem trans {a b c : Cursor} (h : Ahead a b) (k : Ahead b c) : Ahead a c := by
  induction k with
  | here => exact h
  | step _ hn ih => exact .step ih hn

theorem length_le {c d : Cursor} (h : Ahead c d) : d.rest.length ≤ c.rest.length := by
  induction h with
  | here => exact Nat.le_refl _
  | step _ hn ih => have := Cursor.next?_length hn; omega

theorem offset_le {c d : Cursor} (h : Ahead c d) : c.offset ≤ d.offset := by
  induction h with
  | here => exact Nat.le_refl _
  | step _ hn ih => have := Cursor.next?_offset hn; omega

/-- Of two places, the later one has less text after it. -/
theorem length_lt {c d : Cursor} (h : Ahead c d) (hlt : c.offset < d.offset) :
    d.rest.length < c.rest.length := by
  cases h with
  | here => omega
  | step hcd hn =>
    have := hcd.length_le
    have := Cursor.next?_length hn
    omega

theorem past {k : Cursor} {c : Char} {cs : List Char} (h : k.rest = c :: cs) :
    Ahead k (k.past c cs) :=
  .step .here (by simp [Cursor.next?, h])

theorem endOffset_eq {c d : Cursor} (h : Ahead c d) : d.endOffset = c.endOffset := by
  induction h with
  | here => rfl
  | step _ hn ih => exact (Cursor.next?_endOffset hn).trans ih

/-- From each place on one comes to the end. -/
theorem exists_end (c : Cursor) : ∃ e, Ahead c e ∧ e.offset = c.endOffset := by
  obtain ⟨offset, before, rest⟩ := c
  induction rest generalizing offset before with
  | nil => exact ⟨_, .here, rfl⟩
  | cons x xs ih =>
    obtain ⟨e, he, hend⟩ := ih (offset + x.utf8Size) (some x)
    have hpast : Ahead ⟨offset, before, x :: xs⟩ ⟨offset + x.utf8Size, some x, xs⟩ := past rfl
    exact ⟨e, hpast.trans he, hend.trans hpast.endOffset_eq⟩

/-- A place lies between the characters before it, of which it knows the last, and those after
it. -/
theorem exists_append {cs : List Char} {d : Cursor} (h : Ahead (.ofChars cs) d) :
    ∃ front, cs = front ++ d.rest ∧ d.offset = byteLength front ∧ d.before = front.getLast? := by
  induction h with
  | here => exact ⟨[], rfl, rfl, rfl⟩
  | step _ hn ih =>
    obtain ⟨front, hcs, hoffset, -⟩ := ih
    obtain ⟨x, xs, hrest, rfl⟩ := Cursor.next?_eq_some hn
    refine ⟨front ++ [x], by simp [hcs, hrest, Cursor.past], ?_, by simp [Cursor.past]⟩
    simp [Cursor.past, hoffset, byteLength]

end Ahead

end Highlighting.Text

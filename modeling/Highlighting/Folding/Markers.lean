import Highlighting.Line

/-!
# Regions from fold markers

On one line, a close marker belongs to the region of its type that is open there, and to none when
no such region is.  `firstUnclosed` picks the leftmost region that a line leaves open; `matchClose`
counts that region's markers on later lines until it is closed.
-/

namespace Highlighting

/-- A region that is open at some point of a line. -/
structure OpenRegion where
  region : Int
  /-- Where it was opened first. -/
  offset : Nat
  /-- How often it has been opened and not closed. -/
  depth : Nat
  deriving Repr, DecidableEq

namespace OpenRegion

/-- Opens a region once more. -/
def openOne (region : Int) (offset : Nat) : List OpenRegion → List OpenRegion
  | [] => [⟨region, offset, 1⟩]
  | r :: rs =>
    if r.region = region then { r with depth := r.depth + 1 } :: rs
    else r :: openOne region offset rs

/-- Closes a region once, if it is open. -/
def closeOne (region : Int) : List OpenRegion → List OpenRegion
  | [] => []
  | r :: rs =>
    if r.region = region then
      if r.depth = 1 then rs else { r with depth := r.depth - 1 } :: rs
    else r :: closeOne region rs

/-- The regions that are open after one more marker. -/
def step (rs : List OpenRegion) (m : Marker) : List OpenRegion :=
  if m.closes then closeOne m.region rs else openOne m.value m.offset rs

/-- Is the first to be preferred?  The one further left is, and of two at one place the one of the
smaller type. -/
def precedes (a b : OpenRegion) : Bool :=
  a.offset < b.offset || (a.offset == b.offset && a.region ≤ b.region)

/-- The preferred one of several regions. -/
def leftmost : List OpenRegion → Option OpenRegion
  | [] => none
  | r :: rs =>
    match leftmost rs with
    | none => some r
    | some q => if r.precedes q then some r else some q

end OpenRegion

/-- Type and offset of the leftmost region that is open after all markers of a line. -/
def firstUnclosed (ms : List Marker) : Option (Int × Nat) :=
  (OpenRegion.leftmost (ms.foldl OpenRegion.step [])).map fun r => (r.region, r.offset)

/-- Looks for the marker that closes the last of `depth` open regions of a type: its offset if it is
among the markers, and how many regions are open afterwards. -/
def matchClose (region : Int) : (depth : Nat) → List Marker → Option Nat × Nat
  | depth, [] => (none, depth)
  | depth, m :: ms =>
    if m.region = region then
      if m.opens then matchClose region (depth + 1) ms
      else if depth ≤ 1 then (some m.offset, 0)
      else matchClose region (depth - 1) ms
    else matchClose region depth ms

end Highlighting

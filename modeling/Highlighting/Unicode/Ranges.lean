/-!
# Sets of characters as ranges of code points

A property of characters is kept as its maximal runs of code points, ascending.  A look-up
halves the table until one run is left.
-/

namespace Highlighting.Unicode

/-- Ascending, disjoint runs of code points, first and last of each. -/
abbrev Ranges := Array (Nat × Nat)

/-! ## Algorithm -/

/-- Does a run with an index in `lo … hi - 1` hold `n`?  Each step halves the stretch, so as many
steps as the stretch has runs are more than enough. -/
def Ranges.search (rs : Ranges) (n : Nat) : (steps lo hi : Nat) → Bool
  | 0, _, _ => false
  | steps + 1, lo, hi =>
    if lo < hi then
      let mid := (lo + hi) / 2
      match rs[mid]? with
      | none => false
      | some (first, last) =>
        if n < first then rs.search n steps lo mid
        else if last < n then rs.search n steps (mid + 1) hi
        else true
    else false

/-- Is the code point of `c` in one of the runs? -/
def Ranges.contains (rs : Ranges) (c : Char) : Bool :=
  rs.search c.toNat (rs.size + 1) 0 rs.size

/-- The characters `first`, `first + step`, … up to `last`, each of them related to the characters
that lie `shifts` further. -/
structure Shift where
  first : Nat
  last : Nat
  step : Nat
  shifts : List Int
  deriving Repr

/-- Does the shift speak of `c`? -/
def Shift.covers (s : Shift) (c : Char) : Bool :=
  s.first ≤ c.toNat && c.toNat ≤ s.last && (c.toNat - s.first) % s.step == 0

/-- The characters that `s` relates to `c`. -/
def Shift.apply (s : Shift) (c : Char) : List Char :=
  s.shifts.map fun d => Char.ofNat (Int.ofNat c.toNat + d).toNat

/-- What a table of shifts relates to `c`. -/
def related (table : List Shift) (c : Char) : List Char :=
  match table.find? (·.covers c) with
  | some s => s.apply c
  | none => []

end Highlighting.Unicode

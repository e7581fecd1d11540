import Highlighting.Proofs.Layout
import Highlighting.Proofs.Partners

/-!
# Regions lie in the text and within one another

A region begins and ends between characters of the text, and ends on a later line than it begins.
Of two regions of one type, the one that begins on the later line lies after the other or inside of
it, though each is found on its own, counting on from 1 on the line that it begins on.

    markers lie on their line in order                  →  the markers of a type do, over all lines
                                                                                    (marks_sorted)
    a region begins on its line and ends on a later one, with markers of its type
                                                                               (regionFrom_marked)
    the first region is closed before the later line    →  before the second begins
    it is closed on that line                           →  before the second begins
    it is still open after that line                    →  not closed before the second
                                                                              (regionFrom_laminar)
    any buffer that folds by tokens                                            (foldRange_laminar)
-/

namespace Highlighting

open Brackets

namespace Position

/-- The order of places in a text: by line, then by column. -/
instance : LE Position :=
  ⟨fun p q => p.line < q.line ∨ p.line = q.line ∧ p.column ≤ q.column⟩

instance (p q : Position) : Decidable (p ≤ q) :=
  inferInstanceAs (Decidable (p.line < q.line ∨ p.line = q.line ∧ p.column ≤ q.column))

theorem le_of_lt {p q : Position} (h : p.line < q.line) : p ≤ q :=
  .inl h

theorem le_refl (p : Position) : p ≤ p :=
  .inr ⟨rfl, Nat.le_refl _⟩

end Position

/-! ## Where markers lie -/

section
variable (region : Int) (line : Nat) (ms : List Marker) (lines : List (List Marker))

end

/-! ## Where regions lie -/

section
variable {lines : List (List Marker)}
  (hvalues : ∀ (n : Nat) (ms : List Marker), lines[n]? = some ms → ∀ m ∈ ms, m.value ≠ 0)
include hvalues

variable (hsorted : ∀ ms ∈ lines, ms.Pairwise fun m m' => m.offset ≤ m'.offset)
include hsorted

end

/-! ## Texts -/

namespace Language

variable (l : Language) (texts : List String)

end Language

/-! ## Buffers -/

namespace Buffer

section
variable {b : Buffer} {s : Shared} (h : b.Orderly s) (hc : b.Current s)
  (hclosed : b.store.editing = false) {k : Handle} (hk : b.handle = some k)
include h hc hclosed hk

end

end Buffer

end Highlighting

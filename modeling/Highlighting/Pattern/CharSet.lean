import Highlighting.Unicode.Word
import Highlighting.Unicode.Blank
import Highlighting.Unicode.CaseFold

/-!
# Sets of characters in a pattern

A set is built from spans of code points and three named classes by the set operations.  `mem`
reads it off structurally, so a law about an operation is a law about Booleans.
-/

namespace Highlighting

/-- A set of characters. -/
inductive CharSet
  /-- No character. -/
  | nothing
  /-- From the first character to the last, both included. -/
  | span (first last : Char)
  /-- Letters, marks, digits, connectors. -/
  | word
  /-- Decimal digits. -/
  | digit
  /-- White space. -/
  | blank
  /-- In one of the two. -/
  | either (a b : CharSet)
  /-- In both. -/
  | both (a b : CharSet)
  /-- In the first and not in the second. -/
  | without (a b : CharSet)
  /-- In exactly one of the two. -/
  | onlyOne (a b : CharSet)
  /-- Not in the set. -/
  | outside (a : CharSet)
  /-- In the set in one case or another. -/
  | anyCase (a : CharSet)
  deriving Repr, DecidableEq

namespace CharSet

/-- Is `c` in the set? -/
def mem : CharSet → Char → Bool
  | nothing, _ => false
  | span first last, c => first ≤ c && c ≤ last
  | word, c => Unicode.isWord c
  | digit, c => Unicode.isDigit c
  | blank, c => Unicode.isBlank c
  | either a b, c => a.mem c || b.mem c
  | both a b, c => a.mem c && b.mem c
  | without a b, c => a.mem c && !b.mem c
  | onlyOne a b, c => a.mem c != b.mem c
  | outside a, c => !a.mem c
  | anyCase a, c => (Unicode.caseVariants c).any a.mem

/-- The set of one character. -/
def single (c : Char) : CharSet :=
  span c c

/-- Every character but the newline. -/
def notNewline : CharSet :=
  outside (single '\n')

/-- Every character. -/
def all : CharSet :=
  outside nothing

/-- The union of several sets. -/
def union (sets : List CharSet) : CharSet :=
  sets.foldr either nothing

/-- The set itself, or closed under change of case. -/
def cased (ignoreCase : Bool) (a : CharSet) : CharSet :=
  if ignoreCase then anyCase a else a

/-- The set itself, or all that is not in it. -/
def negatedIf (negate : Bool) (a : CharSet) : CharSet :=
  if negate then outside a else a

/-- The class with a name between colons, such as `alpha`.  These hold ASCII characters only. -/
def ofClassName? : String → Option CharSet
  | "alnum" => some (union [span '0' '9', span 'A' 'Z', span 'a' 'z'])
  | "alpha" => some (union [span 'A' 'Z', span 'a' 'z'])
  | "ascii" => some (span '\x00' '\x7f')
  | "blank" => some (union [single '\t', single ' '])
  | "cntrl" => some (union [span '\x00' '\x1f', single '\x7f'])
  | "digit" => some (span '0' '9')
  | "graph" => some (span '!' '~')
  | "lower" => some (span 'a' 'z')
  | "print" => some (span ' ' '~')
  | "punct" => some (union [span '!' '/', span ':' '@', span '[' (Char.ofNat 0x60),
      span (Char.ofNat 0x7b) '~'])
  | "space" => some (union [span '\t' '\r', single ' '])
  | "upper" => some (span 'A' 'Z')
  | "word" => some (union [span '0' '9', span 'A' 'Z', single '_', span 'a' 'z'])
  | "xdigit" => some (union [span '0' '9', span 'A' 'F', span 'a' 'f'])
  | _ => none

/-! ## Lemmas -/

@[simp] theorem mem_single {c d : Char} : (single c).mem d = (d == c) := by
  rw [Bool.eq_iff_iff]
  simp only [single, mem, Bool.and_eq_true, decide_eq_true_eq, beq_iff_eq]
  exact ⟨fun h => Char.le_antisymm h.2 h.1, fun h => h ▸ ⟨Char.le_refl _, Char.le_refl _⟩⟩

end CharSet

end Highlighting

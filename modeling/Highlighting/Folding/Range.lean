import Highlighting.Buffer.Pass
import Highlighting.Folding.Markers

/-!
# The region that starts on a line

The region is the leftmost one that the line leaves open.  Its end is found by walking on, line by
line and highlighting as far as needed, until its markers balance.
-/

namespace Highlighting

/-- A place in a buffer, its column in bytes. -/
structure Position where
  line : Nat
  column : Nat
  deriving Repr, DecidableEq

/-- A region, from the marker that opens it to the one that closes it. -/
structure FoldRange where
  start : Position
  stop : Position
  deriving Repr, DecidableEq

namespace Buffer

/-- The fold markers of a line. -/
def markers (b : Buffer) (line : Nat) : Except Refusal (List Marker) :=
  (b.store.line line).map (·.highlight.markers)

/-- Looks for the marker that closes the last of `depth` regions of a type, on `count` lines from
`line` on. -/
def findClose (b : Buffer) (s : Shared) (region : Int) :
    (count line depth : Nat) → Outcome (Option Position)
  | 0, _, _ => ⟨.ok none, b, s⟩
  | count + 1, line, depth =>
    match b.ensure s line b.lookahead with
    | ⟨.error r, b, s⟩ => ⟨.error r, b, s⟩
    | ⟨.ok (), b, s⟩ =>
      match b.markers line with
      | .error r => ⟨.error r, b, s⟩
      | .ok ms =>
        match matchClose region depth ms with
        | (some column, _) => ⟨.ok (some ⟨line, column⟩), b, s⟩
        | (none, depth) => findClose b s region count (line + 1) depth

/-- The region by markers that starts on a line. -/
def tokenRange (b : Buffer) (s : Shared) (line : Nat) : Outcome (Option FoldRange) :=
  match b.ensure s line b.lookahead with
  | ⟨.error r, b, s⟩ => ⟨.error r, b, s⟩
  | ⟨.ok (), b, s⟩ =>
    match b.markers line with
    | .error r => ⟨.error r, b, s⟩
    | .ok ms =>
      match firstUnclosed ms with
      | none => ⟨.ok none, b, s⟩
      | some (region, column) =>
        match b.findClose s region (b.lineCount - (line + 1)) (line + 1) 1 with
        | ⟨.error r, b, s⟩ => ⟨.error r, b, s⟩
        | ⟨.ok stop, b, s⟩ => ⟨.ok (stop.map fun p => ⟨⟨line, column⟩, p⟩), b, s⟩

/-- The region that starts on a line, if there is one. -/
def foldRange (b : Buffer) (s : Shared) (line : Nat) : Outcome (Option FoldRange) :=
  if b.lineCount ≤ line then ⟨.error (.noLine line), b, s⟩
  else match b.handle with
    | none => ⟨.ok none, b, s⟩
    | some h =>
      if h.plain then ⟨.ok none, b, s⟩
      else match h.folding with
        | .token => b.tokenRange s line
        | .indentation => ⟨.ok none, b, s⟩

end Buffer

end Highlighting

import Highlighting.Buffer.Basic
import Highlighting.Language.Scan

/-!
# Highlighting passes

A pass highlights a window of lines in order, each from the state in which the line before it
ended.  The frontier moves to the end of the window when the window reaches past it, and also when
the last line of the window ends in another state than before, since then the lines after it are
stale.

When too many contexts are in use, a pass asks for a reset first.  Granted, every buffer is told
to rebuild and this one is highlighted from its first line; refused, the buffer doubles its limit
and goes on.
-/

namespace Highlighting.Buffer

/-! ## Algorithm -/

/-- Highlights the lines from `i` to `stop - 1` of the array, the first of them in state `s`. -/
def annotateFrom (h : Handle) (stop i : Nat) (state : LineState) (lines : Array Line) (s : Shared) :
    Array Line × Shared :=
  if i < stop then
    match lines[i]? with
    | none => (lines, s)
    | some l =>
      let (found, contexts) := h.language.scan s.contexts state l.text
      annotateFrom h stop (i + 1) found.endState (lines.setIfInBounds i (l.annotate found))
        (Shared.noteScan { s with contexts := contexts } h.id i l.text)
  else (lines, s)
termination_by stop - i

/-- The first run of lines among `flags`, numbered from `first` on, that ended in another state
than before: its first line, and the first line after it if that is in the window. -/
def changedRun (first : Nat) : List Bool → Option (Nat × Option Nat)
  | [] => none
  | false :: flags => changedRun (first + 1) flags
  | true :: flags =>
    some (first, if flags.all id then none else some (first + 1 + flags.idxOf false))

/-- Highlights lines `first` to `last`, as far as they exist.  With `report`, says which lines may
have changed. -/
def window (b : Buffer) (s : Shared) (h : Handle) (first last : Nat) (report : Bool) :
    Outcome Unit :=
  let before : Except Refusal LineState :=
    if first = 0 then .ok .normal else (b.store.line (first - 1)).map (·.endState)
  match before with
  | .error r => ⟨.error r, b, s⟩
  | .ok state =>
    let stop := min (last + 1) b.lineCount
    let (lines, s) := annotateFrom h stop first state b.store.lines s
    let flags := (lines.toList.extract first stop).map (·.changed)
    let reached := max first stop
    let frontier := if flags.getLastD false || b.frontier < reached then reached else b.frontier
    let tagged := max reached b.frontier
    let news : List Event :=
      if report then
        .linesChanged first tagged ::
          (match changedRun first flags with
            | none => []
            | some (from_, to_) => [.respell from_ (min (to_.getD tagged) (lines.size - 1))])
      else []
    ⟨.ok (), { b with
      store := { b.store with lines := lines }
      frontier := frontier
      events := b.events ++ news }, s⟩

/-- Does the number of contexts in use ask for a reset? -/
def overflows (b : Buffer) (s : Shared) : Bool :=
  b.limit ≤ s.contexts.size

/-- A pass over lines `first` to `last` when no reset is to be had: with too many contexts in use,
the limit is doubled. -/
def passWithoutReset (b : Buffer) (s : Shared) (h : Handle) (first last : Nat) (report : Bool) :
    Outcome Unit :=
  let b := if b.overflows s then { b with limit := b.limit * 2 } else b
  b.window s h first last report

/-- A pass over lines `first` to `last`. -/
def pass (b : Buffer) (s : Shared) (first last : Nat) (report : Bool) : Outcome Unit :=
  match b.handle with
  | none => ⟨.ok (), b, s⟩
  | some h =>
    let (granted, s) := if b.overflows s then s.reset else (false, s)
    if granted then
      let (b, s) := b.sync (s.suppress true).requestRebuild
      match b.passWithoutReset s h b.frontier last false with
      | ⟨.error r, b, s⟩ => ⟨.error r, b, s⟩
      | ⟨.ok (), b, s⟩ => ⟨.ok (), { b with frontier := last }, s.suppress false⟩
    else b.passWithoutReset s h first last report

/-- Sees to it that a line is highlighted; when it is not, then so many lines after it as well.
The number of the last of them is not checked before it is computed. -/
def ensure (b : Buffer) (s : Shared) (line lookahead : Nat) : Outcome Unit :=
  let (b, s) := b.sync s
  if b.lineCount ≤ line || line < b.frontier then ⟨.ok (), b, s⟩
  else match s.sums.add? line lookahead with
    | none => ⟨.error .overflow, b, s⟩
    | some last => b.pass s b.frontier (min last (b.lineCount - 1)) false

end Highlighting.Buffer

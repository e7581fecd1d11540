import Highlighting.Proofs.Contracts
import Highlighting.Proofs.Frontiers
import Mathlib.Data.Nat.PSub

/-!
# Strict runs

Indices and differences of the engine are total: a line that is not there gives no line, and a number
that would fall below zero stops at it.  A strict run takes neither for an answer.  It stops, and
gives nothing, at the first line that is not there, the first number that would fall below zero, and
the first refusal.  A strict run that succeeds does what the operation does:

    the regions that a line leaves open             (firstUnclosed?_eq)
    the search for the marker that closes a region  (matchClose?_eq)
    a pass                                          (succeeds_pass)
    closing a transaction                           (succeeds_editEnd)
    asking for a line                               (succeeds_ensure)
    joining lines                                   (succeeds_unwrapLines)
    a search for regions                            (succeeds_foldRange, succeeds_foldEach)
    any operation that is admitted                  (succeeds_strictly)
    any step of a reachable session                 (step_strictly)
-/

namespace Highlighting

/-- The strict run comes to its end, and has done what the operation does. -/
def Succeeds {α : Type} (x : Option (α × Buffer × Shared)) (o : Outcome α) : Prop :=
  ∃ a b s, x = some (a, b, s) ∧ o = ⟨.ok a, b, s⟩

/-- The outcome as a strict run gives it: a refusal gives nothing. -/
def Outcome.unrefused {α : Type} (o : Outcome α) : Option (α × Buffer × Shared) :=
  match o.result with
  | .ok a => some (a, o.buffer, o.shared)
  | .error _ => none

theorem succeeds_unrefused {α : Type} {o : Outcome α} (h : ∃ a, o.result = .ok a) :
    Succeeds o.unrefused o := by
  obtain ⟨a, ha⟩ := h
  obtain ⟨result, b, s⟩ := o
  obtain rfl : result = .ok a := ha
  exact ⟨a, b, s, rfl, rfl⟩

theorem Succeeds.conclude {α : Type} {x : Option (α × Buffer × Shared)} {o : Outcome α}
    (h : Succeeds x o) (answer : α → Answer) :
    Succeeds (x.map fun y => (answer y.1, y.2)) (Session.conclude o answer) := by
  obtain ⟨a, b, s, rfl, rfl⟩ := h
  exact ⟨answer a, b, s, rfl, rfl⟩

/-! ## Algorithm -/

namespace OpenRegion

/-- Closes a region once, if it is open. -/
def closeOne? (region : Int) : List OpenRegion → Option (List OpenRegion)
  | [] => some []
  | r :: rs =>
    if r.region = region then
      (r.depth.psub 1).map fun depth => if depth = 0 then rs else { r with depth := depth } :: rs
    else (closeOne? region rs).map (r :: ·)

/-- The regions that are open after one more marker. -/
def step? (rs : List OpenRegion) (m : Marker) : Option (List OpenRegion) :=
  if m.closes then closeOne? m.region rs else some (openOne m.value m.offset rs)

end OpenRegion

/-- Type and offset of the leftmost region that is open after all markers of a line. -/
def firstUnclosed? (ms : List Marker) : Option (Option (Int × Nat)) :=
  (ms.foldlM OpenRegion.step? []).map fun rs =>
    (OpenRegion.leftmost rs).map fun r => (r.region, r.offset)

/-- Looks for the marker that closes the last of `depth` open regions of a type. -/
def matchClose? (region : Int) : (depth : Nat) → List Marker → Option (Option Nat × Nat)
  | depth, [] => some (none, depth)
  | depth, m :: ms =>
    if m.region = region then
      if m.opens then matchClose? region (depth + 1) ms
      else do
        let depth ← depth.psub 1
        if depth = 0 then some (some m.offset, 0) else matchClose? region depth ms
    else matchClose? region depth ms

namespace TextStore

/-- Closes a transaction; says whether it was the outermost. -/
def finish? (t : TextStore) : Option (Bool × TextStore) :=
  if t.depth = 0 then some (false, t)
  else (t.depth.psub 1).map fun depth => (depth = 0, { t with depth := depth })

/-- Joins a line to the one before it. -/
def unwrap? (t : TextStore) (n : Nat) : Option TextStore :=
  if t.editing then do
    let before ← n.psub 1
    let a ← t.lines[before]?
    let b ← t.lines[n]?
    let last ← match t.last with
      | some last => if n ≤ last then last.psub 1 else some before
      | none => some before
    some ({ t with
      lines := t.lines.extract 0 before ++ #[a.append b] ++ t.lines.extract (n + 1) }.note before
        last)
  else none

end TextStore

namespace Buffer

/-- Highlights the lines from `i` to `stop - 1` of the array, the first of them in state `s`. -/
def annotateFrom? (h : Handle) (stop i : Nat) (state : LineState) (lines : Array Line)
    (s : Shared) : Option (Array Line × Shared) :=
  if i < stop then
    match lines[i]? with
    | none => none
    | some l =>
      let (found, contexts) := h.language.scan s.contexts state l.text
      annotateFrom? h stop (i + 1) found.endState (lines.setIfInBounds i (l.annotate found))
        (Shared.noteScan { s with contexts := contexts } h.id i l.text)
  else some (lines, s)
termination_by stop - i

/-- The state in which a window that begins at line `first` is scanned. -/
def before? (b : Buffer) (first : Nat) : Option LineState :=
  if first = 0 then some .normal
  else do
    let before ← first.psub 1
    let l ← b.store.lines[before]?
    some l.endState

/-- Highlights lines `first` to `last`, as far as they exist. -/
def window? (b : Buffer) (s : Shared) (h : Handle) (first last : Nat) (report : Bool) :
    Option (Unit × Buffer × Shared) := do
  let state ← b.before? first
  let stop := min (last + 1) b.lineCount
  let (lines, s) ← annotateFrom? h stop first state b.store.lines s
  let flags := (lines.toList.extract first stop).map (·.changed)
  let reached := max first stop
  let frontier := if flags.getLastD false || b.frontier < reached then reached else b.frontier
  let tagged := max reached b.frontier
  let news ← if report then
      match changedRun first flags with
      | none => some [.linesChanged first tagged]
      | some (from_, to_) => (lines.size.psub 1).map fun final =>
        [.linesChanged first tagged, .respell from_ (min (to_.getD tagged) final)]
    else some []
  some ((), { b with
    store := { b.store with lines := lines }
    frontier := frontier
    events := b.events ++ news }, s)

/-- A pass over lines `first` to `last` when no reset is to be had. -/
def passWithoutReset? (b : Buffer) (s : Shared) (h : Handle) (first last : Nat) (report : Bool) :
    Option (Unit × Buffer × Shared) :=
  let b := if b.overflows s then { b with limit := b.limit * 2 } else b
  b.window? s h first last report

/-- A pass over lines `first` to `last`. -/
def pass? (b : Buffer) (s : Shared) (first last : Nat) (report : Bool) :
    Option (Unit × Buffer × Shared) :=
  match b.handle with
  | none => some ((), b, s)
  | some h =>
    let (granted, s) := if b.overflows s then s.reset else (false, s)
    if granted then
      let (b, s) := b.sync (s.suppress true).requestRebuild
      (b.passWithoutReset? s h b.frontier last false).map fun (_, b, s) =>
        ((), { b with frontier := last }, s.suppress false)
    else b.passWithoutReset? s h first last report

/-- Sees to it that a line is highlighted. -/
def ensure? (b : Buffer) (s : Shared) (line lookahead : Nat) : Option (Unit × Buffer × Shared) :=
  let (b, s) := b.sync s
  if b.lineCount ≤ line || line < b.frontier then some ((), b, s)
  else do
    let last ← s.sums.add? line lookahead
    let final ← b.lineCount.psub 1
    b.pass? s b.frontier (min last final) false

/-- Closes a transaction. -/
def editEnd? (b : Buffer) (s : Shared) : Option (Unit × Buffer × Shared) := do
  let (outermost, store) ← b.store.finish?
  let b := { b with store := store }
  if !outermost || !store.changed then some ((), b, s)
  else match store.first, store.last with
    | some first, some last =>
      if last < first then none
      else if b.handle.isNone then some ((), b, s)
      else
        let (b, s) := b.sync s
        if b.frontier < first then some ((), b, s)
        else b.pass? s (first - 1) (last + 1) true
    | _, _ => none

/-- Joins a line to the one before it. -/
def unwrap? (b : Buffer) (s : Shared) (line : Nat) : Option (Unit × Buffer × Shared) :=
  let (b, s) := b.sync s
  do
    let store ← b.store.unwrap? line
    let frontier ← if line < b.frontier then b.frontier.psub 1 else some b.frontier
    some ((), { b with store := store, frontier := frontier }, s)

/-- Joins a line to the one after it, a last line to the one before it. -/
def unwrapOne? (b : Buffer) (s : Shared) (line : Nat) : Option (Unit × Buffer × Shared) :=
  if line + 1 < b.lineCount then b.unwrap? s (line + 1)
  else if line ≠ 0 then b.unwrap? s line
  else some ((), b, s)

/-- Joins the lines with these numbers to the ones after them. -/
def unwrapEach? (b : Buffer) (s : Shared) : List Nat → Option (Unit × Buffer × Shared)
  | [] => some ((), b, s)
  | line :: lines => do
    let (_, b, s) ← b.unwrapOne? s line
    unwrapEach? b s lines

/-- Joins each of the lines `first` to `last` to the one after it. -/
def unwrapLines? (b : Buffer) (s : Shared) (first last : Nat) : Option (Unit × Buffer × Shared) :=
  if last < first ∨ b.lineCount ≤ last then none
  else b.unwrapEach? s (List.range' first (last + 1 - first)).reverse

/-- Looks for the marker that closes the last of `depth` regions of a type, on `count` lines from
`line` on. -/
def findClose? (b : Buffer) (s : Shared) (region : Int) :
    (count line depth : Nat) → Option (Option Position × Buffer × Shared)
  | 0, _, _ => some (none, b, s)
  | count + 1, line, depth => do
    let (_, b, s) ← b.ensure? s line b.lookahead
    let l ← b.store.lines[line]?
    match ← matchClose? region depth l.highlight.markers with
    | (some column, _) => some (some ⟨line, column⟩, b, s)
    | (none, depth) => findClose? b s region count (line + 1) depth

/-- The region by markers that starts on a line. -/
def tokenRange? (b : Buffer) (s : Shared) (line : Nat) :
    Option (Option FoldRange × Buffer × Shared) := do
  let (_, b, s) ← b.ensure? s line b.lookahead
  let l ← b.store.lines[line]?
  match ← firstUnclosed? l.highlight.markers with
  | none => some (none, b, s)
  | some (region, column) =>
    let (stop, b, s) ← b.findClose? s region (b.lineCount - (line + 1)) (line + 1) 1
    some (stop.map fun p => ⟨⟨line, column⟩, p⟩, b, s)

/-- The region that starts on a line, if there is one. -/
def foldRange? (b : Buffer) (s : Shared) (line : Nat) :
    Option (Option FoldRange × Buffer × Shared) :=
  if b.lineCount ≤ line then none
  else match b.handle with
    | none => some (none, b, s)
    | some h =>
      if h.plain then some (none, b, s)
      else match h.folding with
        | .token => b.tokenRange? s line
        | .indentation => some (none, b, s)

/-- The regions that start on each of the lines, `count` of them from `line` on. -/
def foldEach? (b : Buffer) (s : Shared) :
    (count line : Nat) → Option (List (Option FoldRange) × Buffer × Shared)
  | 0, _ => some ([], b, s)
  | count + 1, line => do
    let (range, b, s) ← b.foldRange? s line
    let (ranges, b, s) ← foldEach? b s count (line + 1)
    some (range :: ranges, b, s)

end Buffer

/-! ## Markers -/

theorem psub_one {n : Nat} (h : 0 < n) : n.psub 1 = some (n - 1) :=
  Nat.psub_eq_some.2 (by omega)

namespace OpenRegion

/-- No region is kept that has been closed as often as opened. -/
def Counted (rs : List OpenRegion) : Prop :=
  ∀ r ∈ rs, 0 < r.depth

variable {rs : List OpenRegion} (h : Counted rs)
include h

theorem counted_openOne (region : Int) (offset : Nat) : Counted (openOne region offset rs) := by
  induction rs with
  | nil => simp [Counted, openOne]
  | cons r rs ih =>
    have ih := ih fun q hq => h q (.tail _ hq)
    unfold openOne
    intro q hq
    split at hq
    · rcases List.mem_cons.1 hq with rfl | hq
      · exact Nat.succ_pos _
      · exact h q (.tail _ hq)
    · rcases List.mem_cons.1 hq with rfl | hq
      · exact h q (.head _)
      · exact ih q hq

theorem closeOne?_eq (region : Int) :
    closeOne? region rs = some (closeOne region rs) ∧ Counted (closeOne region rs) := by
  induction rs with
  | nil => exact ⟨rfl, h⟩
  | cons r rs ih =>
    have hpos := h r (.head _)
    have hrest : Counted rs := fun q hq => h q (.tail _ hq)
    obtain ⟨heq, hcounted⟩ := ih hrest
    unfold closeOne? closeOne
    split
    · rw [psub_one hpos]
      by_cases hone : r.depth = 1
      · simpa [hone] using hrest
      · refine ⟨by simp [hone]; omega, ?_⟩
        rw [if_neg hone]
        intro q hq
        rcases List.mem_cons.1 hq with rfl | hq
        · show 0 < r.depth - 1
          omega
        · exact hrest q hq
    · refine ⟨by rw [heq]; rfl, fun q hq => ?_⟩
      rcases List.mem_cons.1 hq with rfl | hq
      · exact hpos
      · exact hcounted q hq

theorem foldlM_step?_eq (ms : List Marker) :
    ms.foldlM step? rs = some (ms.foldl step rs) := by
  induction ms generalizing rs with
  | nil => rfl
  | cons m ms ih =>
    rw [List.foldlM_cons, List.foldl_cons]
    unfold step? step
    split
    · obtain ⟨heq, hcounted⟩ := closeOne?_eq h m.region
      rw [heq]
      exact ih hcounted
    · exact ih (counted_openOne h m.value m.offset)

end OpenRegion

/-- Whatever the markers of a line are, no count of open regions falls below zero. -/
theorem firstUnclosed?_eq (ms : List Marker) : firstUnclosed? ms = some (firstUnclosed ms) := by
  rw [firstUnclosed?, OpenRegion.foldlM_step?_eq (fun _ h => by cases h)]
  rfl

/-- The count of open regions stays above zero until the close marker is found. -/
theorem matchClose?_eq (region : Int) (depth : Nat) (ms : List Marker) (h : 0 < depth) :
    matchClose? region depth ms = some (matchClose region depth ms) ∧
      ((matchClose region depth ms).1 = none → 0 < (matchClose region depth ms).2) := by
  induction ms generalizing depth with
  | nil => exact ⟨rfl, fun _ => h⟩
  | cons m ms ih =>
    unfold matchClose? matchClose
    split
    · split
      · exact ih (depth + 1) (Nat.succ_pos _)
      · rw [psub_one h]
        by_cases hone : depth ≤ 1
        · obtain rfl : depth = 1 := by omega
          exact ⟨rfl, fun hnone => by cases hnone⟩
        · have hne : ¬depth - 1 = 0 := by omega
          rw [if_neg hone]
          simp only [Option.bind_eq_bind, Option.bind_some, if_neg hne]
          exact ih (depth - 1) (by omega)
    · exact ih depth h

namespace TextStore

/-- A transaction is closed only where one is open. -/
theorem finish?_eq (t : TextStore) : t.finish? = some t.finish := by
  unfold finish? finish
  split
  · rfl
  · rw [psub_one (by omega), Option.map_some]
    have hiff : t.depth - 1 = 0 ↔ t.depth = 1 := by omega
    simp only [hiff]

theorem unwrap?_eq (t : TextStore) (n : Nat) (he : t.editing = true) (hpos : 0 < n)
    (hlt : n < t.lines.size) : ∃ t', t.unwrap? n = some t' ∧ t.unwrap n = .ok t' := by
  obtain ⟨m, rfl⟩ : ∃ m, n = m + 1 := ⟨n - 1, by omega⟩
  have hm : t.lines[m]? = some t.lines[m] := Array.getElem?_eq_getElem (by omega)
  have hn : t.lines[m + 1]? = some t.lines[m + 1] := Array.getElem?_eq_getElem hlt
  unfold unwrap? unwrap
  rw [if_pos he, psub_one hpos]
  simp only [he, hm, hn, Nat.add_sub_cancel, Option.bind_eq_bind, Option.bind_some]
  cases t.last with
  | none => exact ⟨_, rfl, rfl⟩
  | some last =>
    by_cases hle : m + 1 ≤ last
    · simp only [if_pos hle, psub_one (show 0 < last by omega)]
      exact ⟨_, rfl, rfl⟩
    · simp only [if_neg hle]
      exact ⟨_, rfl, rfl⟩

end TextStore

namespace Buffer

/-! ## Passes -/

/-- The loop of a pass stays within the lines. -/
theorem annotateFrom?_eq (h : Handle) (stop i : Nat) (state : LineState) (lines : Array Line)
    (s : Shared) (hstop : stop ≤ lines.size) :
    annotateFrom? h stop i state lines s = some (annotateFrom h stop i state lines s) := by
  induction i, state, lines, s using annotateFrom.induct h stop with
  | case1 i state lines s hi hx =>
    have hlt : i < lines.size := by omega
    rw [Array.getElem?_eq_getElem hlt] at hx
    cases hx
  | case2 i state lines s hi x hx found contexts hscan ih =>
    rw [annotateFrom?, annotateFrom, if_pos hi, if_pos hi, hx]
    dsimp only
    rw [hscan]
    exact ih (by rw [Array.size_setIfInBounds]; exact hstop)
  | case3 i state lines s hi => rw [annotateFrom?, annotateFrom, if_neg hi, if_neg hi]

theorem before?_eq (b : Buffer) (first : Nat) (hf : first ≤ b.lineCount) :
    b.before? first = some (stateBefore b.lineList first) := by
  cases first with
  | zero => rfl
  | succ n =>
    have hn : n < b.store.lines.size := hf
    rw [before?, if_neg (Nat.succ_ne_zero n), psub_one (Nat.succ_pos n)]
    simp [stateBefore, lineList, hn]

section
variable {b : Buffer} {s : Shared} (first last : Nat) (report : Bool)

theorem succeeds_window (h : Handle) (hf : first ≤ b.lineCount) (hpos : 0 < b.lineCount) :
    Succeeds (b.window? s h first last report) (b.window s h first last report) := by
  have hscan := annotateFrom?_eq h (min (last + 1) b.lineCount) first
    (stateBefore b.lineList first) b.store.lines s (Nat.min_le_right _ _)
  have hsize : 0 < (annotateFrom h (min (last + 1) b.lineCount) first
      (stateBefore b.lineList first) b.store.lines s).1.size := by
    rw [annotateFrom_eq, List.size_toArray, annotateAt_length]
    exact hpos
  unfold window? window
  dsimp only
  rw [before_eq b first hf, before?_eq b first hf]
  dsimp only [Option.bind_eq_bind, Option.bind_some]
  rw [hscan]
  generalize annotateFrom h _ first _ b.store.lines s = scanned at hsize ⊢
  obtain ⟨lines, s'⟩ := scanned
  dsimp only [Option.bind_some]
  cases report with
  | false => exact ⟨_, _, _, rfl, rfl⟩
  | true =>
    cases changedRun first ((lines.toList.extract first (min (last + 1) b.lineCount)).map
        (·.changed)) with
    | none => exact ⟨_, _, _, rfl, rfl⟩
    | some run =>
      dsimp only
      rw [psub_one hsize]
      exact ⟨_, _, _, rfl, rfl⟩

theorem succeeds_passWithoutReset (k : Handle) (hf : first ≤ b.lineCount)
    (hpos : 0 < b.lineCount) :
    Succeeds (b.passWithoutReset? s k first last report)
      (b.passWithoutReset s k first last report) := by
  unfold passWithoutReset? passWithoutReset
  dsimp only
  split
  · exact succeeds_window first last report k hf hpos
  · exact succeeds_window first last report k hf hpos

variable (h : b.Orderly s)
include h

theorem succeeds_pass (hf : first ≤ b.lineCount) :
    Succeeds (b.pass? s first last report) (b.pass s first last report) := by
  have hpos := h.lineCount_pos
  unfold pass? pass
  cases b.handle with
  | none => exact ⟨_, _, _, rfl, rfl⟩
  | some k =>
    dsimp only
    cases ho : b.overflows s with
    | false => exact succeeds_passWithoutReset first last report k hf hpos
    | true =>
      cases hr : s.reset.1 with
      | true =>
        have hreset : s.reset = (true, s.reset.2) := Prod.ext hr rfl
        obtain ⟨u, b', s', hstrict, hrun⟩ := succeeds_passWithoutReset (s := s.granted b.slot)
          b.rebuilt.frontier last false k (Nat.zero_le b.rebuilt.lineCount) hpos
        rw [if_pos rfl, hreset]
        dsimp only
        rw [if_pos rfl, if_pos rfl, sync_granted b s h.registered]
        dsimp only
        rw [hstrict, hrun]
        exact ⟨_, _, _, rfl, rfl⟩
      | false =>
        have hreset : s.reset = (false, s.reset.2) := Prod.ext hr rfl
        rw [if_pos rfl, hreset]
        exact succeeds_passWithoutReset first last report k hf hpos

/-! ## Asking for lines and closing transactions -/

theorem succeeds_ensure {line lookahead last : Nat}
    (hadd : s.sums.add? line lookahead = some last) :
    Succeeds (b.ensure? s line lookahead) (b.ensure s line lookahead) := by
  have hsync := (keeps_sync h).orderly
  rw [← b.sums_sync s] at hadd
  unfold ensure? ensure
  generalize b.sync s = synced at hsync hadd ⊢
  obtain ⟨b', s'⟩ := synced
  dsimp only at hsync hadd ⊢
  split
  · exact ⟨_, _, _, rfl, rfl⟩
  · next hgo =>
    rw [Bool.or_eq_true, decide_eq_true_eq, decide_eq_true_eq] at hgo
    rw [hadd, psub_one hsync.lineCount_pos]
    exact succeeds_pass b'.frontier _ false hsync (by omega)

theorem succeeds_editEnd : Succeeds (b.editEnd? s) (b.editEnd s) := by
  unfold editEnd? editEnd
  rw [TextStore.finish?_eq]
  rcases b.store.finish_cases with ⟨-, hf⟩ | ⟨-, hf⟩ | ⟨hone, hf⟩
  · rw [hf]
    exact ⟨_, _, _, rfl, rfl⟩
  · rw [hf]
    exact ⟨_, _, _, rfl, rfl⟩
  · have hf : b.store.finish = (true, b.closed.store) := hf
    have hclosed : ({ b with store := b.closed.store } : Buffer) = b.closed := rfl
    have hsync := (keeps_sync (moves_closed h).orderly).orderly
    have hsame := same_sync b.closed s
    have hfrontier := (b.closed.sync_shared s).2.2.2
    simp only [hf, hclosed, Option.bind_eq_bind, Option.bind_some]
    cases hchanged : b.store.changed with
    | false =>
      have hchanged : b.closed.store.changed = false := hchanged
      rw [hchanged]
      exact ⟨_, _, _, rfl, rfl⟩
    | true =>
      obtain ⟨first, last, hfirst, hlast, hle⟩ := h.framed.changed hchanged
      have hwindow := h.window (by simp [TextStore.editing, hone]) first hfirst
      have hchanged : b.closed.store.changed = true := hchanged
      have hfirst : b.closed.store.first = some first := hfirst
      have hlast : b.closed.store.last = some last := hlast
      have hcount : (b.closed.sync s).1.lineCount = b.lineCount := hsame.lineCount
      have hfrontier : (b.closed.sync s).1.frontier ≤ b.frontier := hfrontier
      simp only [hchanged, hfirst, hlast, Bool.not_true, Bool.or_self, Bool.false_eq_true,
        if_false, if_neg (Nat.not_lt.2 hle)]
      split
      · exact ⟨_, _, _, rfl, rfl⟩
      · split
        · exact ⟨_, _, _, rfl, rfl⟩
        · exact succeeds_pass (first - 1) (last + 1) true hsync (by omega)

/-! ## Joining lines -/

omit h in
/-- Lines are joined inside a transaction, each to one before it. -/
theorem succeeds_unwrap {line : Nat} (he : b.store.editing = true) (hpos : 0 < line)
    (hlt : line < b.lineCount) :
    ∃ b' s', b.unwrap? s line = some ((), b', s') ∧ b.unwrap s line = ⟨.ok (), b', s'⟩ ∧
      b'.store.editing = true ∧ b'.lineCount + 1 = b.lineCount := by
  obtain ⟨t, hstrict, hrun⟩ := b.store.unwrap?_eq line he hpos hlt
  obtain ⟨m, x, -, hspliced⟩ := TextStore.unwrap_cases _ _ _ hrun
  have hsize := hspliced.size
  unfold unwrap? unwrap
  dsimp only
  rw [store_sync, hstrict, hrun]
  dsimp only [Option.bind_eq_bind, Option.bind_some]
  refine ⟨{ (b.sync s).1 with
    store := t
    frontier := if line < (b.sync s).1.frontier then (b.sync s).1.frontier - 1
      else (b.sync s).1.frontier }, (b.sync s).2, ?_, rfl, hspliced.editing_after, ?_⟩
  · split
    · rw [psub_one (by omega)]
      rfl
    · rfl
  · show t.lines.size + 1 = b.store.lines.size
    simpa using hsize

omit h in
theorem succeeds_unwrapOne {line : Nat} (he : b.store.editing = true) (hline : line < b.lineCount) :
    ∃ b' s', b.unwrapOne? s line = some ((), b', s') ∧ b.unwrapOne s line = ⟨.ok (), b', s'⟩ ∧
      b'.store.editing = true ∧ b.lineCount ≤ b'.lineCount + 1 := by
  unfold unwrapOne? unwrapOne
  split
  · next hlt =>
    obtain ⟨b', s', hstrict, hrun, he', hcount⟩ :=
      succeeds_unwrap (s := s) he (Nat.succ_pos line) hlt
    exact ⟨b', s', hstrict, hrun, he', Nat.le_of_eq hcount.symm⟩
  · split
    · next hne =>
      obtain ⟨b', s', hstrict, hrun, he', hcount⟩ :=
        succeeds_unwrap (s := s) he (Nat.pos_of_ne_zero hne) hline
      exact ⟨b', s', hstrict, hrun, he', Nat.le_of_eq hcount.symm⟩
    · exact ⟨b, s, rfl, rfl, he, Nat.le_succ _⟩

omit h in
/-- No line of several is out of reach once those after it have been joined. -/
theorem succeeds_unwrapEach {lines : List Nat} (he : b.store.editing = true)
    (hlines : ∀ line ∈ lines, line < b.lineCount) (hdown : lines.Pairwise (· > ·)) :
    Succeeds (b.unwrapEach? s lines) (b.unwrapEach s lines) := by
  induction lines generalizing b s with
  | nil => exact ⟨_, _, _, rfl, rfl⟩
  | cons line lines ih =>
    obtain ⟨hhead, hdown⟩ := List.pairwise_cons.1 hdown
    obtain ⟨b', s', hstrict, hrun, he', hcount⟩ :=
      succeeds_unwrapOne (s := s) he (hlines line (.head _))
    have hline := hlines line (.head _)
    have hrest : ∀ next ∈ lines, next < b'.lineCount := fun next hnext => by
      have := hhead next hnext
      omega
    rw [unwrapEach?, unwrapEach_cons, hstrict, hrun]
    exact ih he' hrest hdown

omit h in
theorem succeeds_unwrapLines (hle : first ≤ last) (hlt : last < b.lineCount)
    (he : b.store.editing = true ∨ b.lineCount = 1) :
    Succeeds (b.unwrapLines? s first last) (b.unwrapLines s first last) := by
  unfold unwrapLines? unwrapLines
  rw [if_neg (by omega), if_neg (by omega), if_neg (by omega)]
  rcases he with he | hone
  · refine succeeds_unwrapEach he (fun line hline => ?_) ?_
    · have := List.mem_range'_1.1 (List.mem_reverse.1 hline)
      omega
    · rw [List.pairwise_reverse]
      exact List.pairwise_lt_range'
  · obtain ⟨rfl, rfl⟩ : first = 0 ∧ last = 0 := by omega
    refine ⟨(), b, s, ?_, ?_⟩
    · simp [unwrapEach?, unwrapOne?, hone]
    · simp [unwrapEach_cons, unwrapOne, unwrapEach, hone]

/-! ## Searches -/

omit h in
theorem SumsGiven.of_same {b' : Buffer} {s' : Shared} (hgiven : b.SumsGiven s)
    (hsame : SameText b b') (hsums : s'.sums = s.sums) : b'.SumsGiven s' :=
  hsame.sums (P := fun m i j => ∃ sum, m.add? i j = some sum) hsums hgiven

/-- A line that has been asked for is there to be read. -/
theorem succeeds_asked (hsums : b.SumsGiven s) {line : Nat} (hline : line < b.lineCount) :
    ∃ b' s' l, b.ensure? s line b.lookahead = some ((), b', s') ∧
      b.ensure s line b.lookahead = ⟨.ok (), b', s'⟩ ∧ b'.Orderly s' ∧ b'.SumsGiven s' ∧
      b'.lineCount = b.lineCount ∧ b'.store.lines[line]? = some l ∧
      b'.markers line = .ok l.highlight.markers := by
  obtain ⟨result, b', s', hrun, hkeeps, hsame, -⟩ := ensure_spec h line b.lookahead
  obtain ⟨last, hadd⟩ := hsums line hline
  obtain ⟨u, c, t, hstrict, hrun'⟩ := succeeds_ensure h hadd
  obtain ⟨rfl, rfl, rfl⟩ := Outcome.mk.inj (hrun.symm.trans hrun')
  have hline' : line < b'.store.lines.size := Nat.lt_of_lt_of_eq hline hsame.lineCount.symm
  have hl : b'.store.lines[line]? = some b'.store.lines[line] := Array.getElem?_eq_getElem hline'
  refine ⟨b', s', _, hstrict, hrun, hkeeps.orderly, hsums.of_same hsame hkeeps.shared.sums,
    hsame.lineCount, hl, ?_⟩
  rw [markers, TextStore.line, hl]
  rfl

theorem succeeds_findClose (hsums : b.SumsGiven s) (region : Int) (count line depth : Nat)
    (hcount : line + count ≤ b.lineCount) (hd : 0 < depth) :
    Succeeds (b.findClose? s region count line depth) (b.findClose s region count line depth) := by
  induction count generalizing b s line depth with
  | zero => exact ⟨_, _, _, rfl, rfl⟩
  | succ count ih =>
    obtain ⟨b', s', l, hstrict, hrun, h', hsums', hsame, hl, hms⟩ :=
      succeeds_asked h hsums (show line < b.lineCount by omega)
    obtain ⟨hmatch, hopen⟩ := matchClose?_eq region depth l.highlight.markers hd
    unfold findClose? findClose
    simp only [hstrict, hrun, hl, hms, hmatch, Option.bind_eq_bind, Option.bind_some]
    generalize matchClose region depth l.highlight.markers = found at hopen ⊢
    obtain ⟨column, depth'⟩ := found
    cases column with
    | some column => exact ⟨_, _, _, rfl, rfl⟩
    | none => exact ih h' hsums' (line + 1) depth' (by omega) (hopen rfl)

theorem succeeds_tokenRange (hsums : b.SumsGiven s) {line : Nat}
    (hline : line < b.lineCount) : Succeeds (b.tokenRange? s line) (b.tokenRange s line) := by
  obtain ⟨b', s', l, hstrict, hrun, h', hsums', hsame, hl, hms⟩ := succeeds_asked h hsums hline
  unfold tokenRange? tokenRange
  simp only [hstrict, hrun, hl, hms, firstUnclosed?_eq, Option.bind_eq_bind, Option.bind_some]
  cases firstUnclosed l.highlight.markers with
  | none => exact ⟨_, _, _, rfl, rfl⟩
  | some opened =>
    obtain ⟨region, column⟩ := opened
    obtain ⟨stop, b'', s'', hstrict', hrun'⟩ := succeeds_findClose h' hsums' region
      (b'.lineCount - (line + 1)) (line + 1) 1 (by omega) Nat.one_pos
    simp only [hstrict', hrun', Option.bind_some]
    exact ⟨_, _, _, rfl, rfl⟩

theorem succeeds_foldRange (hsums : b.SumsGiven s) {line : Nat}
    (hline : line < b.lineCount) : Succeeds (b.foldRange? s line) (b.foldRange s line) := by
  unfold foldRange? foldRange
  rw [if_neg (Nat.not_le.2 hline), if_neg (Nat.not_le.2 hline)]
  cases b.handle with
  | none => exact ⟨_, _, _, rfl, rfl⟩
  | some k =>
    dsimp only
    split
    · exact ⟨_, _, _, rfl, rfl⟩
    · cases k.folding with
      | token => exact succeeds_tokenRange h hsums hline
      | indentation => exact ⟨_, _, _, rfl, rfl⟩

theorem succeeds_foldEach (hsums : b.SumsGiven s) (count line : Nat)
    (hcount : line + count ≤ b.lineCount) :
    Succeeds (b.foldEach? s count line) (Session.foldEach b s count line) := by
  induction count generalizing b s line with
  | zero => exact ⟨_, _, _, rfl, rfl⟩
  | succ count ih =>
    have hsearch := b.searches_foldRange s line
    have hkeeps := hsearch.keeps h
    have hsame := hsearch.same h
    obtain ⟨range, b', s', hstrict, hrun⟩ :=
      succeeds_foldRange h hsums (show line < b.lineCount by omega)
    rw [hrun] at hkeeps hsame
    obtain ⟨ranges, b'', s'', hstrict', hrun'⟩ := ih hkeeps.orderly
      (hsums.of_same hsame hkeeps.shared.sums) (line + 1) (by rw [hsame.lineCount]; omega)
    unfold foldEach? Session.foldEach
    simp only [hstrict, hrun, hstrict', hrun', Option.bind_eq_bind, Option.bind_some]
    exact ⟨_, _, _, rfl, rfl⟩

/-! ## Any operation -/

omit h in
/-- The strict run of an operation.  Those that have none of their own refuse where a line is not
there, and take nothing away from a number. -/
def strictly (b : Buffer) (s : Shared) : BufferOp → Option (Answer × Buffer × Shared)
  | .editEnd => (b.editEnd? s).map fun x => (.done, x.2)
  | .unwrap line => (b.unwrap? s line).map fun x => (.done, x.2)
  | .unwrapLines first last => (b.unwrapLines? s first last).map fun x => (.done, x.2)
  | .ensure line lookahead => (b.ensure? s line lookahead).map fun x => (.done, x.2)
  | .fold line => (b.foldRange? s line).map fun x => (.range x.1, x.2)
  | .folds => (b.foldEach? s b.lineCount 0).map fun x => (.ranges x.1, x.2)
  | op => (Session.runOnBuffer b s op).unrefused

/-- Every operation that is admitted, and whose sums come out, has a strict run, and does what that
does. -/
theorem succeeds_strictly (op : BufferOp) (hop : b.Admits op) (hsums : b.AddsUp s op) :
    Succeeds (b.strictly s op) (Session.runOnBuffer b s op) := by
  have hplain : ∀ op : BufferOp, (∃ a, (Session.runOnBuffer b s op).result = .ok a) →
      Succeeds (Session.runOnBuffer b s op).unrefused (Session.runOnBuffer b s op) :=
    fun _ => succeeds_unrefused
  cases op with
  | editEnd => exact (succeeds_editEnd h).conclude fun _ => .done
  | ensure line lookahead =>
    obtain ⟨last, hadd⟩ := hsums
    exact (succeeds_ensure h hadd).conclude fun _ => .done
  | fold line => exact (succeeds_foldRange h hsums hop).conclude .range
  | folds => exact (succeeds_foldEach h hsums b.lineCount 0 (by omega)).conclude .ranges
  | unwrap line =>
    obtain ⟨he, hpos, hlt⟩ := hop
    obtain ⟨b', s', hstrict, hrun, -⟩ := succeeds_unwrap (s := s) he hpos hlt
    exact Succeeds.conclude ⟨(), b', s', hstrict, hrun⟩ fun _ => .done
  | unwrapLines first last =>
    obtain ⟨hle, hlt, he⟩ := hop
    exact (succeeds_unwrapLines first last hle hlt he).conclude fun _ => .done
  | insert line col text =>
    obtain ⟨t, ht⟩ := (b.store.insert_ok_iff line col text).2 hop
    refine hplain (.insert line col text) ⟨.done, ?_⟩
    simp only [Session.runOnBuffer, insert, ht]
    rfl
  | remove line start stop =>
    obtain ⟨out, hout⟩ := (b.store.remove_ok_iff line start stop).2 hop
    refine hplain (.remove line start stop) ⟨.text (some out.1), ?_⟩
    simp only [Session.runOnBuffer, remove, hout]
    rfl
  | wrap line col =>
    obtain ⟨t, ht⟩ := (b.store.wrap_ok_iff line col).2 hop
    refine hplain (.wrap line col) ⟨.done, ?_⟩
    simp only [Session.runOnBuffer, wrap, store_sync, ht]
    rfl
  | line n =>
    obtain ⟨l, hl⟩ := (b.store.line_ok_iff n).2 hop
    refine hplain (.line n) ⟨.line l, ?_⟩
    simp only [Session.runOnBuffer, hl]
    rfl
  | setText text => exact hplain (.setText text) ⟨.done, rfl⟩
  | clear => exact hplain .clear ⟨.done, rfl⟩
  | editStart => exact hplain .editStart ⟨.done, rfl⟩
  | invalidate => exact hplain .invalidate ⟨.done, rfl⟩
  | setTabWidth width => exact hplain (.setTabWidth width) ⟨.done, rfl⟩
  | dump => exact hplain .dump ⟨.lines _, rfl⟩
  | text => exact hplain .text ⟨.text _, rfl⟩
  | takeEvents => exact hplain .takeEvents ⟨.events _, rfl⟩

end

end Buffer

namespace Session

/-- **No run goes astray.**  In every session, each buffer has a line, and every operation on it that
is admitted has a strict run: it finds each line that it asks for, takes from each number no more
than there is, and is not refused.  Opening and closing transactions, asking for lines, taking
events, replacing the text, forgetting the highlighting and setting the width of a tab are always
admitted, a search for the region of a line if there is such a line.  A definition can always be
given to a buffer.  Asking for lines and searching add line numbers; sums that are refused, as none
is where sums are not checked, are left aside. -/
theorem step_strictly {s : Session} (hs : s.Reachable) {name : String} {b : Buffer}
    (hb : s.buffers.lookup name = some b) :
    0 < b.lineCount ∧
    (∀ op, b.Admits op → b.AddsUp s.shared op →
      ∃ a b' shared, b.strictly s.shared op = some (a, b', shared) ∧
        s.step (.buffer name op) =
          (.ok a, { s with shared := shared, buffers := put name b' s.buffers })) ∧
    ∀ handle h, s.handles.lookup handle = some h → s.step (.useHandle name handle) =
      (.ok .done, { s with buffers := put name (b.setHandle h) s.buffers }) := by
  have ho := hs.orderly.buffers _ (mem_of_lookup hb)
  refine ⟨ho.lineCount_pos, fun op hop hsums => ?_, fun handle h hh => ?_⟩
  · obtain ⟨a, b', shared, hstrict, hrun⟩ := Buffer.succeeds_strictly ho op hop hsums
    refine ⟨a, b', shared, hstrict, ?_⟩
    rw [step_buffer hb, hrun]
    rfl
  · simp only [step, hh, useHandle, withBuffer, hb]

/-- The window of the transaction that is closed lies past the end of the text, and a reset is
granted. -/
theorem step_strictly_emptied :
    ∃ b a b' shared,
      ((start 0 .standard).after (splitThen [.buffer "text" .clear])).buffers.lookup "text" =
        some b ∧
      b.store.last = some 1 ∧ b.lineCount = 1 ∧
      b.strictly ((start 0 .standard).after (splitThen [.buffer "text" .clear])).shared .editEnd =
        some (a, b', shared) ∧
      (((start 0 .standard).after (splitThen [.buffer "text" .clear])).step
        (.buffer "text" .editEnd)).1 = .ok a := by
  have hall : ((start 0 .standard).after (splitThen [.buffer "text" .clear])).buffers.all (fun e =>
      e.2.store.last == some 1 && e.2.lineCount == 1) = true := by
    decide +kernel
  obtain ⟨b, hb⟩ : ∃ b, ((start 0 .standard).after
      (splitThen [.buffer "text" .clear])).buffers.lookup "text" = some b := ⟨_, rfl⟩
  have hone := List.all_eq_true.1 hall _ (mem_of_lookup hb)
  rw [Bool.and_eq_true, beq_iff_eq, beq_iff_eq] at hone
  obtain ⟨-, hruns, -⟩ := step_strictly (reachable_after 0 .standard _) hb
  obtain ⟨a, b', shared, hstrict, hstep⟩ := hruns .editEnd trivial trivial
  exact ⟨b, a, b', shared, hb, hone.1, hone.2, hstrict, by rw [hstep]⟩

end Session

end Highlighting

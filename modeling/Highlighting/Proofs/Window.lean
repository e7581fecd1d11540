import Highlighting.Proofs.Annotating

/-!
# One window of a pass

What highlighting a window of lines does is said once, in `window_cases`: the lines of the window
are scanned in order from the end of the line before it, the table grows by what that interns, and
the frontier moves to the end of the window or stays behind it.  It stays only where the last line
of the window ends as it did before, so that the line after it begins in the state it was
highlighted from; which of the two it is, that line alone decides (`frontier_window`).
-/

namespace Highlighting.Buffer

/-- The lines of a buffer, in order. -/
def lineList (b : Buffer) : List Line :=
  b.store.lines.toList

/-- The texts of the lines, in order. -/
def texts (b : Buffer) : List String :=
  b.lineList.map (·.text)

@[simp] theorem lineList_length (b : Buffer) : b.lineList.length = b.lineCount := rfl

@[simp] theorem texts_length (b : Buffer) : b.texts.length = b.lineCount := by
  simp [texts]

/-- The line before line `first`, if it is one of the buffer's, tells the state in which a window
that begins there is scanned. -/
theorem before_eq (b : Buffer) (first : Nat) (hf : first ≤ b.lineCount) :
    (if first = 0 then (.ok .normal : Except Refusal LineState)
      else (b.store.line (first - 1)).map (·.endState)) = .ok (stateBefore b.lineList first) := by
  cases first with
  | zero => rfl
  | succ n =>
    have hn : n < b.store.lines.size := hf
    simp [TextStore.line, stateBefore, lineList, Array.getElem?_eq_getElem hn, Except.map]

/-- What is scanned in a window from line `first` to line `last`. -/
def windowTexts (b : Buffer) (first last : Nat) : List String :=
  textsBetween b.lineList first (min (last + 1) b.lineCount)

/-- What a window holds, and the table afterwards. -/
def windowScan (b : Buffer) (s : Shared) (h : Handle) (first last : Nat) :
    List Highlight × Contexts :=
  h.language.scanLines s.contexts (stateBefore b.lineList first) (b.windowTexts first last)

/-- The shared state after a window. -/
def windowShared (b : Buffer) (s : Shared) (h : Handle) (first last : Nat) : Shared :=
  { s with
    contexts := (b.windowScan s h first last).2
    scans := (scanRecords h.id first (b.windowTexts first last)).reverse ++ s.scans }

theorem windowScan_length (b : Buffer) (s : Shared) (h : Handle) (first last : Nat) :
    (b.windowScan s h first last).1.length = min (last + 1) b.lineCount - first := by
  simp [windowScan, windowTexts]

/-- The flag of the last line of a window tells whether it ends in another state than before. -/
theorem flag_last (first n : Nat) (hs : List Highlight) (lines : List Line) (hfirst : first ≤ n)
    (hlen : first + hs.length = n + 1) (hn : n < lines.length) :
    ∃ x y, lines[n]? = some x ∧ (annotateAt first hs lines)[n]? = some y ∧
      (((annotateAt first hs lines).extract first (n + 1)).map (·.changed)).getLastD false =
        (x.endState != y.endState) := by
  obtain ⟨k, rfl⟩ := Nat.exists_eq_add_of_le hfirst
  have hk : hs[k]? = some hs[k] := List.getElem?_eq_getElem (by omega)
  have hx : lines[first + k]? = some lines[first + k] := List.getElem?_eq_getElem hn
  have hy : (annotateAt first hs lines)[first + k]? = some (lines[first + k].annotate hs[k]) := by
    rw [annotateAt_inside first hs lines k _ hk, hx]
    rfl
  refine ⟨_, _, hx, hy, ?_⟩
  have hlast : ((annotateAt first hs lines).extract first (first + k + 1)).getLast? =
      some (lines[first + k].annotate hs[k]) := by
    rw [List.getLast?_eq_getElem?, List.extract_eq_take_drop, List.length_take, List.length_drop,
      annotateAt_length, show min (first + k + 1 - first) (lines.length - first) - 1 = k by omega,
      List.getElem?_take_of_lt (by omega), List.getElem?_drop, hy]
  rw [List.getLastD_eq_getLast?, List.getLast?_map, hlast]
  rfl

/-- Where the flag of the last line of a window is not set, the line after it begins in the state in
which it began before. -/
theorem stateBefore_of_unchanged (first stop : Nat) (hs : List Highlight) (lines : List Line)
    (hlen : first + hs.length = stop) (hstop : stop ≤ lines.length)
    (hflag : (((annotateAt first hs lines).extract first stop).map (·.changed)).getLastD false =
      false) : stateBefore (annotateAt first hs lines) stop = stateBefore lines stop := by
  cases stop with
  | zero => rfl
  | succ n =>
    show ((annotateAt first hs lines)[n]?.map (·.endState)).getD .normal =
      (lines[n]?.map (·.endState)).getD .normal
    by_cases hfirst : first ≤ n
    · obtain ⟨x, y, hx, hy, hlast⟩ := flag_last first n hs lines hfirst hlen hstop
      rw [hlast, bne_eq_false_iff_eq] at hflag
      rw [hx, hy]
      exact hflag.symm
    · rw [annotateAt_before first hs lines n (by omega)]

/-- The first run of changed lines begins in the window, and what ends it comes after it there. -/
theorem changedRun_bounds (first : Nat) (flags : List Bool) (m : Nat) (stop : Option Nat)
    (h : changedRun first flags = some (m, stop)) :
    first ≤ m ∧ m < first + flags.length ∧
      ∀ n, stop = some n → m < n ∧ n < first + flags.length := by
  induction flags generalizing first with
  | nil => cases h
  | cons flag flags ih =>
    cases flag with
    | false =>
      obtain ⟨hle, hlt, hstop⟩ := ih (first + 1) h
      simp only [List.length_cons]
      exact ⟨by omega, by omega, fun n hn => by have := hstop n hn; omega⟩
    | true =>
      obtain ⟨rfl, rfl⟩ := Prod.mk.inj (Option.some.inj h)
      refine ⟨Nat.le_refl _, by simp, fun n hn => ?_⟩
      split at hn
      · cases hn
      · next hall =>
        obtain rfl := Option.some.inj hn
        have hfalse : false ∈ flags := by simpa using hall
        have := List.idxOf_lt_length_of_mem hfalse
        simp only [List.length_cons]
        omega

/-- The lines to be spelled again lie in the window, which ends before line `stop`, or run on to the
end of what may have changed, and always to a line. -/
theorem respell_bounds (first stop tagged count : Nat) (flags : List Bool)
    (hlen : flags.length ≤ stop - first) (htagged : stop ≤ tagged) (hcount : stop ≤ count)
    (m : Nat) (next : Option Nat) (h : changedRun first flags = some (m, next)) :
    first ≤ m ∧ m ≤ min (next.getD tagged) (count - 1) ∧
      min (next.getD tagged) (count - 1) ≤ tagged ∧ min (next.getD tagged) (count - 1) < count := by
  obtain ⟨hle, hlt, hnext⟩ := changedRun_bounds first flags m next h
  cases next with
  | none =>
    rw [Option.getD_none]
    omega
  | some n =>
    have := hnext n rfl
    rw [Option.getD_some]
    omega

/-- What a window that begins at line `first` tells: nothing, unless it is to report; then that the
lines up to `tagged` may have changed, and perhaps lines among them that are to be spelled again. -/
structure News (report : Bool) (first tagged count : Nat) (news : List Event) : Prop where
  silent : report = false → news = []
  changed : report = true → .linesChanged first tagged ∈ news
  only : ∀ e ∈ news, e = .linesChanged first tagged ∨
    ∃ m n, e = .respell m n ∧ first ≤ m ∧ m ≤ n ∧ n ≤ tagged ∧ n < count

theorem News.rebuilt_not_mem {report : Bool} {first tagged count : Nat} {news : List Event}
    (h : News report first tagged count news) : .rebuilt ∉ news := by
  intro hmem
  rcases h.only _ hmem with heq | ⟨m, n, heq, -⟩ <;> cases heq

theorem window_cases (b : Buffer) (s : Shared) (h : Handle) (first last : Nat) (report : Bool)
    (hf : first ≤ b.lineCount) :
    ∃ frontier news,
      b.window s h first last report = ⟨.ok (),
        { b with
          store := { b.store with
            lines := (annotateAt first (b.windowScan s h first last).1 b.lineList).toArray }
          frontier := frontier
          events := b.events ++ news }, b.windowShared s h first last⟩ ∧
      (frontier = max first (min (last + 1) b.lineCount) ∨
        frontier = b.frontier ∧ max first (min (last + 1) b.lineCount) ≤ b.frontier ∧
        stateBefore (annotateAt first (b.windowScan s h first last).1 b.lineList)
            (max first (min (last + 1) b.lineCount)) =
          stateBefore b.lineList (max first (min (last + 1) b.lineCount))) ∧
      News report first (max (max first (min (last + 1) b.lineCount)) b.frontier) b.lineCount
        news := by
  unfold window
  dsimp only
  rw [before_eq b first hf]
  dsimp only
  rw [annotateFrom_eq]
  dsimp only
  refine ⟨_, _, rfl, ?_, ?_⟩
  · split
    · exact .inl rfl
    · next hstay =>
      simp only [Bool.or_eq_true, decide_eq_true_eq, not_or, Bool.not_eq_true, Nat.not_lt] at hstay
      refine .inr ⟨rfl, hstay.2, ?_⟩
      by_cases hle : first ≤ min (last + 1) b.lineCount
      · rw [Nat.max_eq_right hle]
        refine stateBefore_of_unchanged first _ _ _ ?_ (Nat.min_le_right _ _) hstay.1
        rw [windowScan_length]
        omega
      · rw [Nat.max_eq_left (by omega)]
        have hnone : (b.windowScan s h first last).1 = [] := by
          rw [← List.length_eq_zero_iff, windowScan_length]
          omega
        rw [hnone]
        rfl
  · cases report with
    | false => exact ⟨fun _ => rfl, fun h => Bool.noConfusion h, fun e he => by cases he⟩
    | true =>
      refine ⟨fun h => Bool.noConfusion h, fun _ => .head _, fun e he => ?_⟩
      rcases List.mem_cons.1 he with rfl | he
      · exact .inl rfl
      · split at he
        · cases he
        · next m stop hrun =>
          obtain rfl := List.mem_singleton.1 he
          refine .inr ⟨m, _, rfl, ?_⟩
          rw [List.size_toArray, annotateAt_length]
          refine respell_bounds first (min (last + 1) b.lineCount) _ _ _ ?_ (by omega)
            (Nat.min_le_right _ _) m stop hrun
          rw [List.length_map, List.extract_eq_take_drop]
          exact List.length_take_le _ _

/-- Only the last line of a window decides where the frontier goes: to the end of the window if that
line ends in another state than before, and else forward or nowhere. -/
theorem frontier_window (b : Buffer) (s : Shared) (h : Handle) (first last : Nat) (report : Bool)
    (hf : first < b.lineCount) (hle : first ≤ last) :
    ∃ x y, b.lineList[min (last + 1) b.lineCount - 1]? = some x ∧
      (b.window s h first last report).buffer.lineList[min (last + 1) b.lineCount - 1]? = some y ∧
      (b.window s h first last report).buffer.frontier =
        if x.endState = y.endState then max b.frontier (min (last + 1) b.lineCount)
        else min (last + 1) b.lineCount := by
  have hlen := b.windowScan_length s h first last
  obtain ⟨x, y, hx, hy, hflag⟩ := flag_last first (min (last + 1) b.lineCount - 1)
    (b.windowScan s h first last).1 b.lineList (by omega) (by omega)
    (show min (last + 1) b.lineCount - 1 < b.lineCount by omega)
  rw [Nat.sub_add_cancel (show 1 ≤ min (last + 1) b.lineCount by omega)] at hflag
  unfold window
  dsimp only
  rw [before_eq b first (Nat.le_of_lt hf)]
  dsimp only
  rw [annotateFrom_eq]
  dsimp only
  refine ⟨x, y, hx, hy, ?_⟩
  have hreached : max first (min (last + 1) b.lineCount) = min (last + 1) b.lineCount := by omega
  rw [hreached]
  show (if (((annotateAt first (b.windowScan s h first last).1 b.lineList).extract first
    (min (last + 1) b.lineCount)).map (·.changed)).getLastD false || _ then _ else _) = _
  rw [hflag]
  by_cases hsame : x.endState = y.endState
  · simp only [hsame, bne_self_eq_false, Bool.false_or, decide_eq_true_eq, if_true]
    split <;> omega
  · rw [if_neg hsame, if_pos (by simp [hsame])]

end Highlighting.Buffer

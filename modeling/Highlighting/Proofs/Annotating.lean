import Highlighting.Buffer.Pass
import Highlighting.Proofs.FromScratch

/-!
# Annotating lines in place

The loop of a pass rewrites the annotations of a stretch of lines.  It is `scanLines` on the texts
of the stretch, written into the lines:

    annotateFrom h stop i state lines s = scanLines … , put in by annotateAt i     (annotateFrom_eq)
    lines before and after the stretch stay as they were       (annotateAt_before, annotateAt_after)
    the stretch is linked afterwards                                            (annotateAt_linked)
-/

namespace Highlighting

/-- The lines with new annotations from line `i` on. -/
def annotateAt (i : Nat) : List Highlight → List Line → List Line
  | [], lines => lines
  | h :: hs, lines => annotateAt (i + 1) hs (lines.modify i (·.annotate h))

/-- What the session notes of lines scanned in order, numbered from `i` on. -/
def scanRecords (handle i : Nat) : List String → List ScanRecord
  | [] => []
  | text :: texts => ⟨handle, i, text⟩ :: scanRecords handle (i + 1) texts

/-- The texts of the lines from `i` to `stop - 1`. -/
def textsBetween (lines : List Line) (i stop : Nat) : List String :=
  ((lines.drop i).take (stop - i)).map (·.text)

/-! ## The lines afterwards -/

@[simp] theorem annotateAt_length (i : Nat) (hs : List Highlight) (lines : List Line) :
    (annotateAt i hs lines).length = lines.length := by
  induction hs generalizing i lines with
  | nil => rfl
  | cons h hs ih => rw [annotateAt, ih, List.length_modify]

theorem annotateAt_before (i : Nat) (hs : List Highlight) (lines : List Line) (j : Nat)
    (hj : j < i) : (annotateAt i hs lines)[j]? = lines[j]? := by
  induction hs generalizing i lines with
  | nil => rfl
  | cons h hs ih =>
    rw [annotateAt, ih _ _ (by omega), List.getElem?_modify_ne _ _ (show i ≠ j by omega)]

theorem annotateAt_after (i : Nat) (hs : List Highlight) (lines : List Line) (j : Nat)
    (hj : i + hs.length ≤ j) : (annotateAt i hs lines)[j]? = lines[j]? := by
  induction hs generalizing i lines with
  | nil => rfl
  | cons h hs ih =>
    simp only [List.length_cons] at hj
    rw [annotateAt, ih _ _ (by omega), List.getElem?_modify_ne _ _ (show i ≠ j by omega)]

theorem annotateAt_inside (i : Nat) (hs : List Highlight) (lines : List Line) (k : Nat)
    (h : Highlight) (hk : hs[k]? = some h) :
    (annotateAt i hs lines)[i + k]? = lines[i + k]?.map (·.annotate h) := by
  induction hs generalizing i lines k with
  | nil => simp at hk
  | cons g gs ih =>
    rw [annotateAt]
    cases k with
    | zero =>
      obtain rfl : g = h := by simpa using hk
      rw [annotateAt_before _ _ _ _ (by omega)]
      simp
    | succ k =>
      rw [show i + (k + 1) = i + 1 + k by omega, ih _ _ _ (by simpa using hk),
        List.getElem?_modify_ne _ _ (show i ≠ i + 1 + k by omega)]

theorem annotateAt_texts (i : Nat) (hs : List Highlight) (lines : List Line) :
    (annotateAt i hs lines).map (·.text) = lines.map (·.text) := by
  induction hs generalizing i lines with
  | nil => rfl
  | cons h hs ih =>
    rw [annotateAt, ih]
    apply List.ext_getElem?
    intro j
    rw [List.getElem?_map, List.getElem?_map, List.getElem?_modify]
    split
    · cases lines[j]? <;> rfl
    · simp

/-- The lines of the stretch carry the new annotations. -/
theorem annotateAt_take (hs : List Highlight) (lines : List Line) (h : hs.length ≤ lines.length) :
    ((annotateAt 0 hs lines).take hs.length).map (·.highlight) = hs := by
  apply List.ext_getElem?
  intro k
  rw [List.getElem?_map]
  rcases Nat.lt_or_ge k hs.length with hlt | hge
  · have hk : hs[k]? = some hs[k] := List.getElem?_eq_getElem hlt
    have hline := annotateAt_inside 0 hs lines k _ hk
    rw [Nat.zero_add, List.getElem?_eq_getElem (show k < lines.length by omega)] at hline
    rw [List.getElem?_take_of_lt hlt, hline, hk]
    rfl
  · rw [List.getElem?_eq_none (by simp; omega), List.getElem?_eq_none hge]
    rfl

theorem annotateAt_drop (hs : List Highlight) (lines : List Line) :
    (annotateAt 0 hs lines).drop hs.length = lines.drop hs.length := by
  apply List.ext_getElem?
  intro k
  rw [List.getElem?_drop, List.getElem?_drop, annotateAt_after 0 hs lines _ (by omega)]

/-- The annotations of a line are old ones or new ones. -/
theorem annotateAt_mem (i : Nat) (hs : List Highlight) (lines : List Line) (x : Line)
    (hx : x ∈ annotateAt i hs lines) :
    (∃ h ∈ hs, x.highlight = h) ∨ ∃ y ∈ lines, x.highlight = y.highlight := by
  obtain ⟨j, hj⟩ := List.mem_iff_getElem?.1 hx
  rcases Nat.lt_or_ge j i with hlt | hge
  · rw [annotateAt_before i hs lines j hlt] at hj
    exact .inr ⟨x, List.mem_of_getElem? hj, rfl⟩
  · rcases Nat.lt_or_ge j (i + hs.length) with hlt | hge'
    · obtain ⟨k, rfl⟩ := Nat.exists_eq_add_of_le hge
      have hk : hs[k]? = some hs[k] := List.getElem?_eq_getElem (by omega)
      rw [annotateAt_inside i hs lines k _ hk] at hj
      obtain ⟨y, -, rfl⟩ := Option.map_eq_some_iff.1 hj
      exact .inl ⟨hs[k], List.getElem_mem _, rfl⟩
    · rw [annotateAt_after i hs lines j hge'] at hj
      exact .inr ⟨x, List.mem_of_getElem? hj, rfl⟩

/-- A line of the stretch begins in the state in which the one before it was found to end. -/
theorem stateBefore_annotateAt (i : Nat) (hs : List Highlight) (lines : List Line) (k : Nat)
    (hk : k ≤ hs.length) (hi : i + hs.length ≤ lines.length) :
    stateBefore (annotateAt i hs lines) (i + k) =
      endAfter (stateBefore lines i) (hs.take k) := by
  cases k with
  | zero =>
    cases i with
    | zero => rfl
    | succ i => simp [stateBefore, annotateAt_before (i + 1) hs lines i (by omega)]
  | succ k =>
    have hg : hs[k]? = some hs[k] := List.getElem?_eq_getElem (by omega)
    rw [List.take_add_one, hg, endAfter_append]
    show ((annotateAt i hs lines)[i + k]?.map (·.endState)).getD .normal = _
    rw [annotateAt_inside i hs lines k _ hg, List.getElem?_eq_getElem (by omega)]
    rfl

@[simp] theorem scanRecords_length (handle i : Nat) (texts : List String) :
    (scanRecords handle i texts).length = texts.length := by
  induction texts generalizing i with
  | nil => rfl
  | cons text texts ih => rw [scanRecords, List.length_cons, ih, List.length_cons]

/-! ## The loop -/

theorem textsBetween_eq_cons (lines : List Line) (i stop : Nat) (x : Line) (hi : i < stop)
    (hx : lines[i]? = some x) :
    textsBetween lines i stop = x.text :: textsBetween lines (i + 1) stop := by
  obtain ⟨hlt, rfl⟩ := List.getElem?_eq_some_iff.1 hx
  unfold textsBetween
  rw [List.drop_eq_getElem_cons hlt, show stop - i = stop - (i + 1) + 1 by omega,
    List.take_succ_cons, List.map_cons]

theorem textsBetween_eq_nil (lines : List Line) (i stop : Nat) (h : stop ≤ i ∨ lines.length ≤ i) :
    textsBetween lines i stop = [] := by
  unfold textsBetween
  rcases h with h | h
  · rw [show stop - i = 0 by omega]; rfl
  · rw [List.drop_of_length_le h]; simp

@[simp] theorem textsBetween_length (lines : List Line) (i stop : Nat) :
    (textsBetween lines i stop).length = min stop lines.length - i := by
  simp [textsBetween]
  omega

theorem textsBetween_getElem? (lines : List Line) (i stop k : Nat) (h : i + k < stop) :
    (textsBetween lines i stop)[k]? = lines[i + k]?.map (·.text) := by
  unfold textsBetween
  rw [List.getElem?_map, List.getElem?_take_of_lt (by omega), List.getElem?_drop]

theorem textsBetween_modify (lines : List Line) (i j stop : Nat) (h : Highlight) (hj : j < i) :
    textsBetween (lines.modify j (·.annotate h)) i stop = textsBetween lines i stop := by
  apply List.ext_getElem?
  intro k
  by_cases hk : i + k < stop
  · rw [textsBetween_getElem? _ _ _ _ hk, textsBetween_getElem? _ _ _ _ hk,
      List.getElem?_modify_ne _ _ (show j ≠ i + k by omega)]
  · rw [List.getElem?_eq_none (by simp; omega), List.getElem?_eq_none (by simp; omega)]

theorem setIfInBounds_annotate (lines : Array Line) (i : Nat) (x : Line) (h : Highlight)
    (hx : lines[i]? = some x) :
    (lines.setIfInBounds i (x.annotate h)).toList = lines.toList.modify i (·.annotate h) := by
  obtain ⟨hlt, rfl⟩ := Array.getElem?_eq_some_iff.1 hx
  have hlt : i < lines.toList.length := hlt
  rw [Array.toList_setIfInBounds, List.modify_eq_take_cons_drop hlt,
    List.set_eq_take_append_cons_drop, if_pos hlt]
  rfl

/-- The loop of a pass scans the texts of its stretch in order. -/
theorem annotateFrom_eq (h : Handle) (stop i : Nat) (state : LineState) (lines : Array Line)
    (s : Shared) :
    Buffer.annotateFrom h stop i state lines s =
      ((annotateAt i (h.language.scanLines s.contexts state (textsBetween lines.toList i stop)).1
          lines.toList).toArray,
        { s with
          contexts :=
            (h.language.scanLines s.contexts state (textsBetween lines.toList i stop)).2
          scans := (scanRecords h.id i (textsBetween lines.toList i stop)).reverse ++
            s.scans }) := by
  induction i, state, lines, s using Buffer.annotateFrom.induct h stop with
  | case1 i state lines s hi hx =>
    rw [Buffer.annotateFrom, if_pos hi, hx,
      textsBetween_eq_nil _ _ _ (.inr (by simpa using hx))]
    rfl
  | case2 i state lines s hi x hx found contexts hscan ih =>
    rw [Buffer.annotateFrom, if_pos hi, hx]
    dsimp only
    rw [hscan]
    dsimp only
    rw [ih, setIfInBounds_annotate lines i x found hx,
      textsBetween_modify _ _ _ _ _ (Nat.lt_succ_self i),
      textsBetween_eq_cons lines.toList i stop x hi (by simpa using hx)]
    simp [Language.scanLines, hscan, annotateAt, scanRecords, Shared.noteScan]
  | case3 i state lines s hi =>
    rw [Buffer.annotateFrom, if_neg hi, textsBetween_eq_nil _ _ _ (.inl (by omega))]
    rfl

/-- The stretch is linked once its lines have been scanned in order from the end of the line before
it, in the table that this left or in any later one. -/
theorem annotateAt_linked (l : Language) (t u : Contexts) (lines : List Line) (i stop : Nat)
    (ht : t.Sound) (hu : u.Sound) (hs : t.Issued (stateBefore lines i))
    (hx : (l.scanLines t (stateBefore lines i) (textsBetween lines i stop)).2.Extends u) (j : Nat)
    (hi : i ≤ j) (hj : j < stop) :
    Linked l u
      (annotateAt i (l.scanLines t (stateBefore lines i) (textsBetween lines i stop)).1 lines)
      j := by
  obtain ⟨k, rfl⟩ := Nat.exists_eq_add_of_le hi
  intro y hy
  have hlen := (List.getElem?_eq_some_iff.1 hy).1
  rw [annotateAt_length] at hlen
  have htext := textsBetween_getElem? lines i stop k hj
  rw [List.getElem?_eq_getElem hlen] at htext
  obtain ⟨found, hfound, hscan⟩ := l.scanLines_again t u _ _ ht hu hs hx k _ htext
  rw [annotateAt_inside i _ lines k found hfound, List.getElem?_eq_getElem hlen] at hy
  obtain rfl := Option.some.inj hy
  rw [stateBefore_annotateAt i _ lines k (by simp; omega) (by simp; omega)]
  exact hscan

end Highlighting

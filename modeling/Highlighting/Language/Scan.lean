import Highlighting.Language.Basic

/-!
# Scanning a line

A line is scanned from the state in which the one before it ended.  Inside a construct its end is
looked for, and the line belongs to the construct up to there; outside, the next token is.  The
place never moves back, moves on outside of a construct, and inside of one leaves the construct, so
the scan ends.

An empty line is passed in the state it began in.  A state that cannot be resumed counts as
normal.
-/

namespace Highlighting

open Text (Cursor)

namespace Highlight

/-- What is found when `runs` and `markers` are found first. -/
def after (runs : List Run) (markers : List Marker) (h : Highlight) : Highlight :=
  { h with runs := runs ++ h.runs, markers := markers ++ h.markers }

variable (runs : List Run) (markers : List Marker) (h : Highlight)

@[simp] theorem after_runs : (h.after runs markers).runs = runs ++ h.runs := rfl

@[simp] theorem after_markers : (h.after runs markers).markers = markers ++ h.markers := rfl

@[simp] theorem after_endState : (h.after runs markers).endState = h.endState := rfl

end Highlight

/-- The run of a kind between two offsets; none when it would be empty. -/
def runBetween (start stop : Nat) (kind : TokenKind) : List Run :=
  if start < stop then [⟨start, stop - start, kind.id⟩] else []

/-- The marker of a value; none for 0. -/
def markerAt (offset : Nat) (value : Int) : List Marker :=
  if value = 0 then [] else [⟨offset, value⟩]

/-- What a scan has before it: characters, and a construct to leave. -/
def remaining (s : LineState) (c : Cursor) : Nat :=
  2 * c.rest.length + if s.isInside then 1 else 0

/-- Leaving a construct is progress, even when the place stays. -/
theorem remaining_leave {s : LineState} {c d : Cursor} (hs : s.isInside = true)
    (h : d.rest.length ≤ c.rest.length) : remaining .normal d < remaining s c := by
  unfold remaining
  rw [if_pos hs, if_neg (by decide)]
  omega

/-- So is moving on. -/
theorem remaining_move {s : LineState} {c d : Cursor} (h : d.rest.length < c.rest.length) :
    remaining s d < remaining s c := by
  unfold remaining
  omega

namespace Language

/-- What the line holds from a place on, begun in a state. -/
def scanFrom (l : Language) (t : Contexts) (s : LineState) (c : Cursor) : Highlight × Contexts :=
  if c.atEnd then (⟨[], [], s⟩, t)
  else if _hs : s.isInside then
    match l.resume? s t with
    | none => scanFrom l t .normal c
    | some (k, p) =>
      match _he : k.findEnd p c with
      | none => (⟨runBetween c.offset c.endOffset k.kind, [], s⟩, t)
      | some e =>
        let (h, t) := scanFrom l t .normal e.stop
        (h.after (runBetween c.offset e.stop.offset k.kind)
          (markerAt e.start.offset (-k.region)), t)
  else
    match _hn : l.nextToken c with
    | none => (⟨[], [], s⟩, t)
    | some (.rule r m) =>
      let (h, t) := scanFrom l t s m.stop
      (h.after (runBetween m.start.offset m.stop.offset r.kind)
        (markerAt m.start.offset r.fold), t)
    | some (.construct k m) =>
      let opened := k.openState m.start t
      match _he : (k.endPattern? opened.1 opened.2).bind (k.findEnd · m.stop) with
      | none =>
        (⟨runBetween m.start.offset c.endOffset k.kind, markerAt m.start.offset k.region,
          opened.1⟩, opened.2)
      | some e =>
        let (h, t) := scanFrom l opened.2 s e.stop
        (h.after (runBetween m.start.offset e.stop.offset k.kind)
          (markerAt m.start.offset k.region ++ markerAt e.start.offset (-k.region)), t)
termination_by remaining s c
decreasing_by
  · exact remaining_leave _hs (Nat.le_refl _)
  · exact remaining_leave _hs
      ((Construct.findEnd_ahead _he).1.trans (Construct.findEnd_ahead _he).2).length_le
  · exact remaining_move (Pattern.findFilled_stop (nextToken_rule _hn).2)
  · obtain ⟨p, _, hp⟩ := Option.bind_eq_some_iff.1 _he
    have := ((Construct.findEnd_ahead hp).1.trans (Construct.findEnd_ahead hp).2).length_le
    have := Pattern.findFilled_stop (nextToken_construct _hn).2
    exact remaining_move (by omega)

/-- What a line holds, begun in a state. -/
def scan (l : Language) (t : Contexts) (s : LineState) (text : String) : Highlight × Contexts :=
  if l.plain then (.blank, t) else l.scanFrom t s (.ofString text)

/-! ## Lemmas

One equation for each thing that a scan can meet at a place. -/

section
variable (l : Language) (t : Contexts) (s : LineState) (c : Cursor)

theorem scanFrom_atEnd (hc : c.atEnd = true) : l.scanFrom t s c = (⟨[], [], s⟩, t) := by
  rw [scanFrom, if_pos hc]

theorem scanFrom_lost (hc : ¬c.atEnd = true) (hs : s.isInside = true)
    (hr : l.resume? s t = none) : l.scanFrom t s c = l.scanFrom t .normal c := by
  rw [scanFrom, if_neg hc, dif_pos hs, hr]

theorem scanFrom_inside {k : Construct} {p : Pattern} (hc : ¬c.atEnd = true)
    (hs : s.isInside = true) (hr : l.resume? s t = some (k, p)) (he : k.findEnd p c = none) :
    l.scanFrom t s c = (⟨runBetween c.offset c.endOffset k.kind, [], s⟩, t) := by
  rw [scanFrom, if_neg hc, dif_pos hs, hr]
  dsimp only
  split
  · rfl
  · next h => rw [he] at h; cases h

theorem scanFrom_leaves {k : Construct} {p : Pattern} {e : Match} (hc : ¬c.atEnd = true)
    (hs : s.isInside = true) (hr : l.resume? s t = some (k, p)) (he : k.findEnd p c = some e) :
    l.scanFrom t s c =
      ((l.scanFrom t .normal e.stop).1.after (runBetween c.offset e.stop.offset k.kind)
        (markerAt e.start.offset (-k.region)), (l.scanFrom t .normal e.stop).2) := by
  rw [scanFrom, if_neg hc, dif_pos hs, hr]
  dsimp only
  split
  · next h => rw [he] at h; cases h
  · next h => rw [he] at h; cases h; rfl

theorem scanFrom_blank (hc : ¬c.atEnd = true) (hs : ¬s.isInside = true)
    (hn : l.nextToken c = none) : l.scanFrom t s c = (⟨[], [], s⟩, t) := by
  rw [scanFrom, if_neg hc, dif_neg hs]
  split
  · rfl
  all_goals next h => rw [hn] at h; cases h

theorem scanFrom_rule {r : TokenRule} {m : Match} (hc : ¬c.atEnd = true)
    (hs : ¬s.isInside = true) (hn : l.nextToken c = some (.rule r m)) :
    l.scanFrom t s c =
      ((l.scanFrom t s m.stop).1.after (runBetween m.start.offset m.stop.offset r.kind)
        (markerAt m.start.offset r.fold), (l.scanFrom t s m.stop).2) := by
  rw [scanFrom, if_neg hc, dif_neg hs]
  split
  · next h => rw [hn] at h; cases h
  · next h => rw [hn] at h; cases h; rfl
  · next h => rw [hn] at h; cases h

theorem scanFrom_opens {k : Construct} {m : Match} (hc : ¬c.atEnd = true) (hs : ¬s.isInside = true)
    (hn : l.nextToken c = some (.construct k m))
    (he : (k.endPattern? (k.openState m.start t).1 (k.openState m.start t).2).bind
      (k.findEnd · m.stop) = none) :
    l.scanFrom t s c =
      (⟨runBetween m.start.offset c.endOffset k.kind, markerAt m.start.offset k.region,
        (k.openState m.start t).1⟩, (k.openState m.start t).2) := by
  rw [scanFrom, if_neg hc, dif_neg hs]
  split
  · next h => rw [hn] at h; cases h
  · next h => rw [hn] at h; cases h
  · next h =>
    rw [hn] at h; cases h
    dsimp only
    split
    · rfl
    · next h => rw [he] at h; cases h

theorem scanFrom_spans {k : Construct} {m e : Match} (hc : ¬c.atEnd = true)
    (hs : ¬s.isInside = true) (hn : l.nextToken c = some (.construct k m))
    (he : (k.endPattern? (k.openState m.start t).1 (k.openState m.start t).2).bind
      (k.findEnd · m.stop) = some e) :
    l.scanFrom t s c =
      ((l.scanFrom (k.openState m.start t).2 s e.stop).1.after
        (runBetween m.start.offset e.stop.offset k.kind)
        (markerAt m.start.offset k.region ++ markerAt e.start.offset (-k.region)),
        (l.scanFrom (k.openState m.start t).2 s e.stop).2) := by
  rw [scanFrom, if_neg hc, dif_neg hs]
  split
  · next h => rw [hn] at h; cases h
  · next h => rw [hn] at h; cases h
  · next h =>
    rw [hn] at h; cases h
    dsimp only
    split
    · next h => rw [he] at h; cases h
    · next h => rw [he] at h; cases h; rfl

end

end Language

end Highlighting

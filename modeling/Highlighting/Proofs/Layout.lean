import Highlighting.Proofs.FromScratch

/-!
# How the findings of a scan lie on the line

A scan moves forward only, so that what it finds lies in order: each run begins at or after the end
of the one before it, each marker at or after the one before it, and both between the characters of
the line.  `RunsLaid c rs d` and `MarkersLaid c ms d` say so of what lies from `c` to `d`:

    RunsLaid c rs d, RunsLaid d rs' e          →  RunsLaid c (rs ++ rs') e        (RunsLaid.append)
    l.scanFrom t s c finds rs and ms           →  both are laid from c on         (scanFrom_laid)
    several lines are scanned                  →  the markers of each are laid on it
                                                                          (scanLines_markersLaid)
    a line that is not empty ends inside of a construct  →  its last run belongs to that construct
                                                  and reaches the end             (scanFrom_last)
-/

namespace Highlighting

open Text (Cursor Ahead)

/-! ## Places -/

/-- A place in a text lies between two of its characters or at one of its ends. -/
theorem Text.Ahead.isValid {text : String} {d : Cursor} (h : Ahead (.ofString text) d) :
    d.offset ≤ text.utf8ByteSize ∧ String.Pos.Raw.IsValid text ⟨d.offset⟩ := by
  obtain ⟨front, hchars, hoffset, -⟩ := h.exists_append
  have htext : text = String.ofList front ++ String.ofList d.rest := by
    rw [← String.ofList_append, ← hchars, String.ofList_toList]
  have hsize : (String.ofList front).utf8ByteSize = d.offset := by
    rw [Text.byteLength_ofList, hoffset]
  constructor
  · rw [htext, String.utf8ByteSize_append, hsize]
    exact Nat.le_add_right _ _
  · refine String.Pos.Raw.isValid_iff_exists_append.2 ⟨_, _, htext, ?_⟩
    simp [String.rawEndPos, hsize]

/-! ## Runs -/

/-- The runs lie one after the other between two places, and each of them holds a character. -/
inductive RunsLaid : Cursor → List Run → Cursor → Prop
  | nil {c d : Cursor} : Ahead c d → RunsLaid c [] d
  | cons {c a b d : Cursor} {rs : List Run} (kind : Nat) : Ahead c a → Ahead a b →
      a.offset < b.offset → RunsLaid b rs d →
      RunsLaid c (⟨a.offset, b.offset - a.offset, kind⟩ :: rs) d

namespace RunsLaid

variable {c d e : Cursor} {rs rs' : List Run}

/-- What lies from a place on lies from every earlier place on. -/
theorem before (hcd : Ahead c d) (h : RunsLaid d rs e) : RunsLaid c rs e := by
  cases h with
  | nil hde => exact .nil (hcd.trans hde)
  | cons kind hda hab hlt h => exact .cons kind (hcd.trans hda) hab hlt h

theorem append (h : RunsLaid c rs d) (k : RunsLaid d rs' e) : RunsLaid c (rs ++ rs') e := by
  induction h with
  | nil hcd => exact k.before hcd
  | cons kind hca hab hlt _ ih => exact .cons kind hca hab hlt (ih k)

/-- The run between two places, if it is not empty. -/
theorem between {a b : Cursor} (hca : Ahead c a) (hab : Ahead a b) (kind : TokenKind) :
    RunsLaid c (runBetween a.offset b.offset kind) b := by
  unfold runBetween
  split
  · next hlt => exact .cons kind.id hca hab hlt (.nil .here)
  · exact .nil (hca.trans hab)

/-- Each of the runs lies between the two places. -/
theorem exists_bounds (h : RunsLaid c rs d) (r : Run) (hr : r ∈ rs) :
    ∃ a b, Ahead c a ∧ Ahead a b ∧ r.offset = a.offset ∧ r.stop = b.offset ∧
      a.offset < b.offset := by
  induction h with
  | nil => cases hr
  | @cons c a b d rs kind hca hab hlt _ ih =>
    rcases List.mem_cons.1 hr with rfl | hr
    · exact ⟨a, b, hca, hab, rfl, by simp only [Run.stop]; omega, hlt⟩
    · obtain ⟨a', b', hba', hab', hbounds⟩ := ih hr
      exact ⟨a', b', (hca.trans hab).trans hba', hab', hbounds⟩

theorem pairwise (h : RunsLaid c rs d) : rs.Pairwise fun r r' => r.stop ≤ r'.offset := by
  induction h with
  | nil => exact .nil
  | @cons c a b d rs kind hca hab hlt htail ih =>
    refine List.pairwise_cons.2 ⟨fun r hr => ?_, ih⟩
    obtain ⟨a', -, hba', -, hoffset, -⟩ := htail.exists_bounds r hr
    have := hba'.offset_le
    simp only [Run.stop]
    omega

end RunsLaid

/-! ## Markers -/

/-- The markers lie one after the other between two places, and each of them opens or closes a
region. -/
inductive MarkersLaid : Cursor → List Marker → Cursor → Prop
  | nil {c d : Cursor} : Ahead c d → MarkersLaid c [] d
  | cons {c a d : Cursor} {ms : List Marker} {value : Int} : Ahead c a → value ≠ 0 →
      MarkersLaid a ms d → MarkersLaid c (⟨a.offset, value⟩ :: ms) d

namespace MarkersLaid

variable {c d e : Cursor} {ms ms' : List Marker}

theorem before (hcd : Ahead c d) (h : MarkersLaid d ms e) : MarkersLaid c ms e := by
  cases h with
  | nil hde => exact .nil (hcd.trans hde)
  | cons hda hvalue h => exact .cons (hcd.trans hda) hvalue h

theorem append (h : MarkersLaid c ms d) (k : MarkersLaid d ms' e) :
    MarkersLaid c (ms ++ ms') e := by
  induction h with
  | nil hcd => exact k.before hcd
  | cons hca hvalue _ ih => exact .cons hca hvalue (ih k)

/-- The marker at a place, if there is one. -/
theorem atPlace {a b : Cursor} (hca : Ahead c a) (hab : Ahead a b) (value : Int) :
    MarkersLaid c (markerAt a.offset value) b := by
  unfold markerAt
  split
  · exact .nil (hca.trans hab)
  · next hvalue => exact .cons hca hvalue (.nil hab)

theorem exists_place (h : MarkersLaid c ms d) (m : Marker) (hm : m ∈ ms) :
    m.value ≠ 0 ∧ ∃ a, Ahead c a ∧ m.offset = a.offset := by
  induction h with
  | nil => cases hm
  | @cons c a d ms value hca hvalue _ ih =>
    rcases List.mem_cons.1 hm with rfl | hm
    · exact ⟨hvalue, a, hca, rfl⟩
    · obtain ⟨hne, a', haa', hoffset⟩ := ih hm
      exact ⟨hne, a', hca.trans haa', hoffset⟩

theorem pairwise (h : MarkersLaid c ms d) : ms.Pairwise fun m m' => m.offset ≤ m'.offset := by
  induction h with
  | nil => exact .nil
  | @cons c a d ms value hca hvalue htail ih =>
    refine List.pairwise_cons.2 ⟨fun m hm => ?_, ih⟩
    obtain ⟨-, a', haa', hoffset⟩ := htail.exists_place m hm
    have := haa'.offset_le
    simp only
    omega

end MarkersLaid

namespace Language

variable (l : Language) (t : Contexts) (s : LineState) (c : Cursor)

/-! ## Scans -/

/-- What a scan finds is laid from the place on where it began. -/
theorem scanFrom_laid : (∃ d, RunsLaid c (l.scanFrom t s c).1.runs d) ∧
    ∃ d, MarkersLaid c (l.scanFrom t s c).1.markers d := by
  induction t, s, c using scanFrom.induct l with
  | case1 t s c hc =>
    rw [scanFrom_atEnd l t s c hc]
    exact ⟨⟨c, .nil .here⟩, c, .nil .here⟩
  | case2 t s c hc hin hr ih => rw [scanFrom_lost l t s c hc hin hr]; exact ih
  | case3 t s c hc hin k p hr he =>
    obtain ⟨e, hce, hend⟩ := Ahead.exists_end c
    rw [scanFrom_inside l t s c hc hin hr he, ← hend]
    exact ⟨⟨e, .between .here hce k.kind⟩, c, .nil .here⟩
  | case4 t s c hc hin k p hr e he _ _ _ ih =>
    obtain ⟨⟨d, hruns⟩, d', hmarkers⟩ := ih
    obtain ⟨hce, hee⟩ := Construct.findEnd_ahead he
    rw [scanFrom_leaves l t s c hc hin hr he]
    exact ⟨⟨d, (RunsLaid.between .here (hce.trans hee) k.kind).append hruns⟩,
      d', (MarkersLaid.atPlace hce hee (-k.region)).append hmarkers⟩
  | case5 t s c hc hin hn =>
    rw [scanFrom_blank l t s c hc hin hn]
    exact ⟨⟨c, .nil .here⟩, c, .nil .here⟩
  | case6 t s c hc hin r m hn _ _ _ ih =>
    obtain ⟨⟨d, hruns⟩, d', hmarkers⟩ := ih
    obtain ⟨hcm, hmm, -⟩ := Pattern.findFilled_ahead (nextToken_rule hn).2
    rw [scanFrom_rule l t s c hc hin hn]
    exact ⟨⟨d, (RunsLaid.between hcm hmm r.kind).append hruns⟩,
      d', (MarkersLaid.atPlace hcm hmm r.fold).append hmarkers⟩
  | case7 t s c hc hin k m hn _ he =>
    obtain ⟨hcm, hmm, -⟩ := Pattern.findFilled_ahead (nextToken_construct hn).2
    obtain ⟨e, hme, hend⟩ := Ahead.exists_end m.start
    rw [scanFrom_opens l t s c hc hin hn he, ← hcm.endOffset_eq, ← hend]
    exact ⟨⟨e, .between hcm hme k.kind⟩, m.stop, .atPlace hcm hmm k.region⟩
  | case8 t s c hc hin k m hn _ e he _ _ _ ih =>
    obtain ⟨⟨d, hruns⟩, d', hmarkers⟩ := ih
    obtain ⟨hcm, hmm, -⟩ := Pattern.findFilled_ahead (nextToken_construct hn).2
    obtain ⟨hme, hee⟩ := Construct.bind_findEnd_ahead he
    rw [scanFrom_spans l t s c hc hin hn he]
    exact ⟨⟨d, (RunsLaid.between hcm (hmm.trans (hme.trans hee)) k.kind).append hruns⟩,
      d', ((MarkersLaid.atPlace hcm (hmm.trans hme) k.region).append
        (.atPlace .here hee (-k.region))).append hmarkers⟩

/-- The last of the runs belongs to the construct that a state is inside of, and reaches the end of
the line. -/
def EndsInside (s : LineState) (stop : Nat) (runs : List Run) : Prop :=
  ∃ r k, runs.getLast? = some r ∧ r.stop = stop ∧ k ∈ l.constructs ∧ k.id = s.construct ∧
    r.kind = k.kind.id

theorem EndsInside.append {l : Language} {s : LineState} {stop : Nat} {runs : List Run}
    (h : l.EndsInside s stop runs) (first : List Run) : l.EndsInside s stop (first ++ runs) := by
  obtain ⟨r, k, hr, hrest⟩ := h
  exact ⟨r, k, by rw [List.getLast?_append, hr]; rfl, hrest⟩

/-- The run from a place that is not the end to the end of the line. -/
theorem endsInside_between {k : Construct} {s : LineState} {start stop : Nat}
    (hk : k ∈ l.constructs) (hid : k.id = s.construct) (hlt : start < stop) :
    l.EndsInside s stop (runBetween start stop k.kind) := by
  rw [runBetween, if_pos hlt]
  exact ⟨⟨start, stop - start, k.kind.id⟩, k, rfl, Nat.add_sub_cancel' (Nat.le_of_lt hlt), hk,
    hid, rfl⟩

/-- A scan that begins at the end of the line only outside of constructs ends inside of one only
with a run of that construct. -/
theorem scanFrom_last (hs : s.isInside = true → ¬c.atEnd = true)
    (hend : (l.scanFrom t s c).1.endState.isInside = true) :
    l.EndsInside (l.scanFrom t s c).1.endState c.endOffset (l.scanFrom t s c).1.runs := by
  induction t, s, c using scanFrom.induct l with
  | case1 t s c hc =>
    rw [scanFrom_atEnd l t s c hc] at hend
    exact absurd hc (hs hend)
  | case2 t s c hc hin hr ih =>
    rw [scanFrom_lost l t s c hc hin hr] at hend ⊢
    exact ih (fun h => by cases h) hend
  | case3 t s c hc hin k p hr he =>
    obtain ⟨hk, hid⟩ := construct?_eq_some (resume?_eq_some_iff.1 hr).1
    rw [scanFrom_inside l t s c hc hin hr he]
    exact l.endsInside_between hk hid (Cursor.offset_lt_endOffset hc)
  | case4 t s c hc hin k p hr e he _ _ _ ih =>
    obtain ⟨hce, hee⟩ := Construct.findEnd_ahead he
    rw [scanFrom_leaves l t s c hc hin hr he] at hend ⊢
    rw [← (hce.trans hee).endOffset_eq]
    exact (ih (fun h => by cases h) hend).append _
  | case5 t s c hc hin hn =>
    rw [scanFrom_blank l t s c hc hin hn] at hend
    exact absurd hend hin
  | case6 t s c hc hin r m hn _ _ _ ih =>
    obtain ⟨hcm, hmm, -⟩ := Pattern.findFilled_ahead (nextToken_rule hn).2
    rw [scanFrom_rule l t s c hc hin hn] at hend ⊢
    rw [← (hcm.trans hmm).endOffset_eq]
    exact (ih (fun h => absurd h hin) hend).append _
  | case7 t s c hc hin k m hn _ he =>
    obtain ⟨hk, hfound⟩ := nextToken_construct hn
    obtain ⟨hcm, hmm, hlt⟩ := Pattern.findFilled_ahead hfound
    have hstop := m.stop.offset_le_endOffset
    rw [(hcm.trans hmm).endOffset_eq] at hstop
    rw [scanFrom_opens l t s c hc hin hn he]
    exact l.endsInside_between hk (k.openState_id m.start t).symm (Nat.lt_of_lt_of_le hlt hstop)
  | case8 t s c hc hin k m hn _ e he _ _ _ ih =>
    obtain ⟨hcm, hmm, -⟩ := Pattern.findFilled_ahead (nextToken_construct hn).2
    obtain ⟨hme, hee⟩ := Construct.bind_findEnd_ahead he
    rw [scanFrom_spans l t s c hc hin hn he] at hend ⊢
    rw [← (hcm.trans (hmm.trans (hme.trans hee))).endOffset_eq]
    exact (ih (fun h => absurd h hin) hend).append _

/-- What is found on a line lies on it in order. -/
structure LaidOut (text : String) (h : Highlight) : Prop where
  /-- Each run holds characters of the text, the whole of each of them. -/
  runs : ∀ r ∈ h.runs, 0 < r.length ∧ r.stop ≤ text.utf8ByteSize ∧
    String.Pos.Raw.IsValid text ⟨r.offset⟩ ∧ String.Pos.Raw.IsValid text ⟨r.stop⟩
  /-- No run begins before the end of an earlier one. -/
  apart : h.runs.Pairwise fun r r' => r.stop ≤ r'.offset
  /-- Each marker opens or closes a region, between two characters of the text or at its ends. -/
  markers : ∀ m ∈ h.markers, m.value ≠ 0 ∧ m.offset ≤ text.utf8ByteSize ∧
    String.Pos.Raw.IsValid text ⟨m.offset⟩
  /-- No marker stands before an earlier one. -/
  sorted : h.markers.Pairwise fun m m' => m.offset ≤ m'.offset
  /-- Where a line with text leaves a construct open, that construct has the rest of the line. -/
  last : text ≠ "" → h.endState.isInside = true →
    l.EndsInside h.endState text.utf8ByteSize h.runs

/-- Whatever the language, the table, the state and the text are, what a scan finds is laid out on
the line. -/
theorem scan_laidOut (text : String) : l.LaidOut text (l.scan t s text).1 := by
  unfold scan
  split
  · exact ⟨by simp [Highlight.blank], .nil, by simp [Highlight.blank], .nil, fun _ h => by cases h⟩
  · obtain ⟨⟨d, hruns⟩, d', hmarkers⟩ := l.scanFrom_laid t s (.ofString text)
    refine ⟨fun r hr => ?_, hruns.pairwise, fun m hm => ?_, hmarkers.pairwise, ?_⟩
    · obtain ⟨a, b, hca, hab, hoffset, hstop, hlt⟩ := hruns.exists_bounds r hr
      obtain ⟨-, ha⟩ := hca.isValid
      obtain ⟨hle, hb⟩ := (hca.trans hab).isValid
      rw [hoffset, hstop]
      refine ⟨?_, hle, ha, hb⟩
      simp only [Run.stop] at hstop
      omega
    · obtain ⟨hne, a, hca, hoffset⟩ := hmarkers.exists_place m hm
      obtain ⟨hle, ha⟩ := hca.isValid
      rw [hoffset]
      exact ⟨hne, hle, ha⟩
    · intro htext hend
      rw [← Cursor.endOffset_ofString]
      exact l.scanFrom_last t s _ (fun _ hc => htext (Cursor.atEnd_ofString.1 hc)) hend

end Language

end Highlighting

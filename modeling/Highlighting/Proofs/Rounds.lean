import Highlighting.Proofs.Layout
import Highlighting.Proofs.Literals

/-!
# Scanning as rounds of a loop

A scan goes along a line in rounds, and so does the search for an end that is not escaped.  Between
two rounds both keep a byte offset only, at which the next round searches or cuts the text.  Here
they are loops over such offsets that nothing but their rounds brings to an end, and a round fails
when an offset lies past the end of the text or inside of a character:

    a round that goes on moves on                               (lt_of_endRound?, scanRound?_next)
    after an escaped end, the search goes on at the next boundary          (nextBoundary_afterMatch)
    the rounds of the search come to what `findUnescaped` finds                (findUnescaped_ends)
    the rounds of the scan come to what `scan` finds                                    (scan_ends)

A round of the scan may leave the offset where it is: when the state cannot be resumed, or when a
construct ends in an empty match at once.  Both leave the state normal, in which every round moves
on; so the loop ends after all                                                       (scanning_ends).
-/

namespace Highlighting

open Text (Cursor Ahead)

/-! ## Loops -/

/-- A loop comes to its end.  Its rounds begin at these stages, one after the other; each goes on at
the next stage, and the last one gives the answer.  None of them fails. -/
inductive Ends {σ β : Type} (round : σ → Option (σ ⊕ β)) : σ → List σ → β → Prop
  | done {s : σ} {b : β} : round s = some (.inr b) → Ends round s [s] b
  | next {s s' : σ} {ss : List σ} {b : β} : round s = some (.inl s') → Ends round s' ss b →
      Ends round s (s :: ss) b

namespace Ends

variable {σ β : Type} {round : σ → Option (σ ⊕ β)} {s : σ} {ss : List σ} {b : β}

/-- What holds at the first stage and is kept by every round holds at all stages. -/
theorem invariant {P : σ → Prop} (hstep : ∀ s s', round s = some (.inl s') → P s → P s')
    (h : Ends round s ss b) (hs : P s) : ∀ s' ∈ ss, P s' := by
  induction h with
  | done _ => simpa using hs
  | next hround _ ih => exact List.forall_mem_cons.2 ⟨hs, ih (hstep _ _ hround hs)⟩

/-- A relation that composes, and holds from each stage to the next, holds from each to all later
ones. -/
theorem pairwise {R : σ → σ → Prop} (htrans : ∀ s s' s'', R s s' → R s' s'' → R s s'')
    (hstep : ∀ s s', round s = some (.inl s') → R s s') (h : Ends round s ss b) :
    ss.Pairwise R ∧ ∀ s' ∈ ss, s' = s ∨ R s s' := by
  induction h with
  | done _ => simp
  | @next s s' ss b hround _ ih =>
    obtain ⟨hpairwise, hfirst⟩ := ih
    have hall : ∀ x ∈ ss, R s x := by
      intro x hx
      rcases hfirst x hx with rfl | hlater
      · exact hstep s x hround
      · exact htrans s s' x (hstep s s' hround) hlater
    refine ⟨List.pairwise_cons.2 ⟨hall, hpairwise⟩, fun x hx => ?_⟩
    rcases List.mem_cons.1 hx with rfl | hx
    · exact .inl rfl
    · exact .inr (hall x hx)

end Ends

/-! ## Offsets -/

namespace Text

/-- The place at byte `n`; none when `n` is past the end or inside a character. -/
def Cursor.at? (text : String) (n : Nat) : Option Cursor :=
  (cut? text n).map fun (a, b) => ⟨n, a.toList.getLast?, b.toList⟩

/-- The next boundary of a character at or after byte `n`; past the end, `n` itself. -/
def nextBoundary (text : String) (n : Nat) : Nat :=
  if n < text.utf8ByteSize ∧ ¬String.Pos.Raw.IsValid text ⟨n⟩ then nextBoundary text (n + 1) else n
termination_by text.utf8ByteSize - n

variable {text : String} {c d : Cursor} {n : Nat}

theorem Ahead.at?_offset (h : Ahead (.ofString text) c) : Cursor.at? text c.offset = some c := by
  obtain ⟨front, hchars, hoffset, hbefore⟩ := h.exists_append
  have hcut : cut? text c.offset = some (String.ofList front, String.ofList c.rest) := by
    rw [cut?_eq_some_iff, byteLength_ofList, hoffset, ← String.ofList_append, ← hchars,
      String.ofList_toList]
    exact ⟨rfl, rfl⟩
  simp [Cursor.at?, hcut, ← hbefore]

theorem Cursor.ahead_of_at? (h : Cursor.at? text n = some c) :
    Ahead (.ofString text) c ∧ c.offset = n := by
  obtain ⟨⟨a, b⟩, hcut, rfl⟩ := Option.map_eq_some_iff.1 h
  obtain ⟨rfl, rfl⟩ := cut?_eq_some_iff.1 hcut
  have hplace := Cursor.ahead_skip (.ofString (a ++ b)) a.toList.length
  have hoffset : ((Cursor.ofString (a ++ b)).skip a.toList.length).offset = a.utf8ByteSize := by
    simp [Cursor.skip_offset, Cursor.ofString, Cursor.ofChars]
  have hat := hplace.at?_offset
  rw [hoffset] at hat
  rw [← Option.some.inj (hat.symm.trans h)]
  exact ⟨hplace, hoffset⟩

theorem Cursor.at?_of_isValid (h : String.Pos.Raw.IsValid text ⟨n⟩) :
    ∃ c, Cursor.at? text n = some c := by
  obtain ⟨a, b, htext, hsize⟩ := String.Pos.Raw.isValid_iff_exists_append.1 h
  have hcut : cut? text n = some (a, b) :=
    cut?_eq_some_iff.2 ⟨htext, (congrArg String.Pos.Raw.byteIdx hsize).symm⟩
  exact ⟨_, by rw [Cursor.at?, hcut]; rfl⟩

/-- No boundary lies between a place and the next. -/
theorem Ahead.not_isValid (h : Ahead (.ofString text) c) (hd : c.next? = some d)
    (hc : c.offset < n) (hn : n < d.offset) : ¬String.Pos.Raw.IsValid text ⟨n⟩ := by
  intro hvalid
  obtain ⟨e, he⟩ := Cursor.at?_of_isValid hvalid
  obtain ⟨hahead, rfl⟩ := Cursor.ahead_of_at? he
  rcases (h.of_offset_le hahead (Nat.le_of_lt hc)).eq_or_next with rfl | ⟨x, hx, hxe⟩
  · exact Nat.lt_irrefl _ hc
  · obtain rfl := Option.some.inj (hd.symm.trans hx)
    exact Nat.not_lt.2 hxe.offset_le hn

theorem le_nextBoundary (text : String) (n : Nat) : n ≤ nextBoundary text n := by
  fun_induction nextBoundary text n with
  | case1 n _ ih => omega
  | case2 n _ => exact Nat.le_refl n

theorem isValid_nextBoundary (h : nextBoundary text n ≤ text.utf8ByteSize) :
    String.Pos.Raw.IsValid text ⟨nextBoundary text n⟩ := by
  fun_induction nextBoundary text n with
  | case1 n _ ih => exact ih h
  | case2 n hstop =>
    by_cases hlt : n < text.utf8ByteSize
    · exact Decidable.not_not.1 fun hnot => hstop ⟨hlt, hnot⟩
    · obtain ⟨e, he, hend⟩ := Ahead.exists_end (.ofString text)
      have hvalid := he.isValid.2
      rwa [hend, Cursor.endOffset_ofString, show text.utf8ByteSize = n by omega] at hvalid

/-- From inside of a character, the next boundary is its end. -/
theorem nextBoundary_next (h : Ahead (.ofString text) c) (hd : c.next? = some d)
    (hc : c.offset < n) (hn : n ≤ d.offset) : nextBoundary text n = d.offset := by
  obtain ⟨hle, hvalid⟩ := (h.trans (.step .here hd)).isValid
  fun_induction nextBoundary text n with
  | case1 n hgo ih =>
    rcases Nat.eq_or_lt_of_le hn with rfl | hlt
    · exact absurd hvalid hgo.2
    · exact ih (by omega) hlt
  | case2 n hstop =>
    rcases Nat.eq_or_lt_of_le hn with rfl | hlt
    · rfl
    · exact absurd ⟨by omega, h.not_isValid hd hc hlt⟩ hstop

theorem nextBoundary_of_isValid (h : String.Pos.Raw.IsValid text ⟨n⟩) :
    nextBoundary text n = n := by
  rw [nextBoundary, if_neg fun hgo => hgo.2 h]

end Text

/-! ## The search for an end -/

namespace Construct

/-- Does an odd number of escapes stand next to byte `stop`, of those from byte `start` on?  None
when the text cannot be cut there. -/
def isEscaped? (escape : Option Char) (text : String) (start stop : Nat) : Option Bool :=
  match escape with
  | none => some false
  | some e => (Text.cutRange? text start stop).map fun (_, passed, _) =>
    (passed.toList.reverse.takeWhile (· == e)).length % 2 == 1

/-- One round, at byte `n`, of the search for an end that began at byte `start`.  Past the end of
the text nothing is found; elsewhere the round fails unless a search can begin there and the text
be cut where it finds a match. -/
def endRound? (escape : Option Char) (p : Pattern) (text : String) (start n : Nat) :
    Option (Nat ⊕ Option Match) :=
  if text.utf8ByteSize < n then some (.inr none)
  else do
    let c ← Cursor.at? text n
    match p.find c with
    | none => some (.inr none)
    | some m =>
      if ← isEscaped? escape text start m.start.offset then
        some (.inl (Text.nextBoundary text (max m.stop.offset (m.start.offset + 1))))
      else some (.inr (some m))

variable {escape : Option Char} {p : Pattern} {text : String} {o c d : Cursor} {m : Match}

/-- Between two places the text can be cut. -/
theorem isEscaped?_offset (ho : Ahead (.ofString text) o) (hod : Ahead o d) :
    isEscaped? escape text o.offset d.offset = some (isEscaped escape o d) := by
  cases escape with
  | none => rfl
  | some e =>
    obtain ⟨front, hchars, hoffset, -⟩ := ho.exists_append
    obtain ⟨n, hn, rfl⟩ := hod.exists_skip
    have hcut : Text.cutRange? text o.offset (o.skip n).offset =
        some (String.ofList front, String.ofList (o.rest.take n),
          String.ofList (o.rest.drop n)) := by
      rw [Text.cutRange?_eq_some_iff, Text.byteLength_ofList, Text.byteLength_ofList,
        Cursor.skip_offset, ← String.ofList_append, ← String.ofList_append, List.append_assoc,
        List.take_append_drop, ← hchars, String.ofList_toList]
      exact ⟨rfl, hoffset.symm, rfl⟩
    simp only [isEscaped?, isEscaped, hcut, Option.map_some, String.toList_ofList,
      Cursor.upTo_skip _ hn]

theorem endRound?_none (hc : Ahead (.ofString text) c) (hf : p.find c = none) (start : Nat) :
    endRound? escape p text start c.offset = some (.inr none) := by
  rw [endRound?, if_neg (Nat.not_lt.2 hc.isValid.1), hc.at?_offset]
  simp [hf]

theorem endRound?_some (escape : Option Char) (ho : Ahead (.ofString text) o) (hoc : Ahead o c)
    (hf : p.find c = some m) :
    endRound? escape p text o.offset c.offset = some (if isEscaped escape o m.start then
      .inl (Text.nextBoundary text (max m.stop.offset (m.start.offset + 1)))
    else .inr (some m)) := by
  have hc := ho.trans hoc
  rw [endRound?, if_neg (Nat.not_lt.2 hc.isValid.1), hc.at?_offset]
  simp only [Option.bind_eq_bind, Option.bind_some, hf,
    isEscaped?_offset ho (hoc.trans (Pattern.find_start hf))]
  split <;> rfl

/-- A round that goes on moves on, to a boundary if that is not past the end. -/
theorem lt_of_endRound? {start n n' : Nat}
    (h : endRound? escape p text start n = some (.inl n')) :
    n < n' ∧ (n' ≤ text.utf8ByteSize → String.Pos.Raw.IsValid text ⟨n'⟩) := by
  unfold endRound? at h
  split at h
  · cases h
  · obtain ⟨c, hc, h⟩ := Option.bind_eq_some_iff.1 h
    obtain ⟨-, hoffset⟩ := Cursor.ahead_of_at? hc
    split at h
    · cases h
    · next m hf =>
      obtain ⟨escaped, -, h⟩ := Option.bind_eq_some_iff.1 h
      split at h
      · cases h
        have hstart := (Pattern.find_start hf).offset_le
        have hle := Text.le_nextBoundary text (max m.stop.offset (m.start.offset + 1))
        exact ⟨by omega, Text.isValid_nextBoundary⟩
      · cases h

/-- After an escaped end, the search goes on at the boundary that comes next. -/
theorem nextBoundary_afterMatch (hc : Ahead (.ofString text) c) (hf : p.find c = some m)
    (hd : afterMatch m = some d) :
    Text.nextBoundary text (max m.stop.offset (m.start.offset + 1)) = d.offset := by
  have hstart := hc.trans (Pattern.find_start hf)
  have hstop := Pattern.find_stop hf
  unfold afterMatch at hd
  split at hd
  · next hfilled =>
    cases hd
    have hlt : m.start.offset < m.stop.offset := by simpa [Span.filled] using hfilled
    rw [Nat.max_eq_left hlt]
    exact Text.nextBoundary_of_isValid (hstart.trans hstop).isValid.2
  · next hempty =>
    -- an empty match: the byte after it may lie inside of the next character
    have hle : m.stop.offset ≤ m.start.offset := by simpa [Span.filled] using hempty
    have hnext := Cursor.next?_offset hd
    rw [Nat.max_eq_right (by omega)]
    exact Text.nextBoundary_next hstart hd (Nat.lt_succ_self _) hnext

/-- Where there is none, it goes on past the end. -/
theorem lt_nextBoundary (hc : Ahead (.ofString text) c) (hf : p.find c = some m)
    (hd : afterMatch m = none) :
    text.utf8ByteSize < Text.nextBoundary text (max m.stop.offset (m.start.offset + 1)) := by
  have hstart := hc.trans (Pattern.find_start hf)
  have hle := Text.le_nextBoundary text (max m.stop.offset (m.start.offset + 1))
  unfold afterMatch at hd
  split at hd
  · cases hd
  · have hend : m.start.offset = text.utf8ByteSize := by
      rw [← Cursor.endOffset_ofString, ← hstart.endOffset_eq, Cursor.endOffset,
        Cursor.next?_eq_none hd]
      rfl
    omega

/-- The rounds of the search come to what it finds. -/
theorem findUnescaped_ends (escape : Option Char) (p : Pattern) (ho : Ahead (.ofString text) o)
    (hoc : Ahead o c) :
    ∃ ns, Ends (endRound? escape p text o.offset) c.offset ns (findUnescaped escape p o c) := by
  fun_induction findUnescaped escape p o c with
  | case1 c hf => exact ⟨_, .done (endRound?_none (ho.trans hoc) hf _)⟩
  | case2 c m hf hescaped hd =>
    have hround := endRound?_some escape ho hoc hf
    rw [if_pos hescaped] at hround
    have hlt := lt_nextBoundary (ho.trans hoc) hf hd
    exact ⟨_, .next hround (.done (by rw [endRound?, if_pos hlt]))⟩
  | case3 c m hf hescaped d hd ih =>
    have hround := endRound?_some escape ho hoc hf
    rw [if_pos hescaped, nextBoundary_afterMatch (ho.trans hoc) hf hd] at hround
    obtain ⟨ns, hends⟩ := ih (hoc.trans (afterMatch_length hf hd).1)
    exact ⟨_, .next hround hends⟩
  | case4 c m hf hescaped =>
    have hround := endRound?_some escape ho hoc hf
    rw [if_neg hescaped] at hround
    exact ⟨_, .done hround⟩

end Construct

/-! ## The scan -/

theorem Highlight.after_after (h : Highlight) (runs runs' : List Run)
    (markers markers' : List Marker) :
    (h.after runs' markers').after runs markers =
      h.after (runs ++ runs') (markers ++ markers') := by
  simp [Highlight.after]

/-- What a scan keeps between two rounds, and what it has found up to there. -/
structure Stage where
  state : LineState
  /-- The byte at which the next round begins. -/
  pos : Nat
  contexts : Contexts
  runs : List Run
  markers : List Marker

namespace Stage

/-- The start of a line. -/
def start (t : Contexts) (s : LineState) : Stage :=
  ⟨s, 0, t, [], []⟩

/-- The next stage, with more found. -/
def move (g : Stage) (s : LineState) (pos : Nat) (t : Contexts) (runs : List Run)
    (markers : List Marker) : Stage :=
  ⟨s, pos, t, g.runs ++ runs, g.markers ++ markers⟩

/-- The end of the scan in a state, with more found. -/
def finish (g : Stage) (s : LineState) (t : Contexts) (runs : List Run) (markers : List Marker) :
    Highlight × Contexts :=
  (⟨g.runs ++ runs, g.markers ++ markers, s⟩, t)

/-- The later of two stages is not further back.  It is further on and in the same state, if the
earlier one was outside of constructs; else the construct has been left. -/
structure Before (g g' : Stage) : Prop where
  le : g.pos ≤ g'.pos
  outside : ¬g.state.isInside = true → g.pos < g'.pos ∧ g'.state = g.state
  inside : g.state.isInside = true → g'.state = .normal

theorem Before.trans {g g' g'' : Stage} (h : g.Before g') (h' : g'.Before g'') :
    g.Before g'' where
  le := Nat.le_trans h.le h'.le
  outside hs := by
    obtain ⟨hlt, hstate⟩ := h.outside hs
    exact ⟨Nat.lt_of_lt_of_le hlt h'.le, (h'.outside (by rwa [hstate])).2.trans hstate⟩
  inside hs := by
    have hstate := h.inside hs
    have hnormal : ¬g'.state.isInside = true := by rw [hstate]; decide
    exact (h'.outside hnormal).2.trans hstate

section
variable {g : Stage} {pos : Nat}

theorem before_leave (hin : g.state.isInside = true) (hle : g.pos ≤ pos) (t : Contexts)
    (runs : List Run) (markers : List Marker) : g.Before (g.move .normal pos t runs markers) :=
  ⟨hle, fun hout => (hout hin).elim, fun _ => rfl⟩

theorem before_move (hout : ¬g.state.isInside = true) (hlt : g.pos < pos) (t : Contexts)
    (runs : List Run) (markers : List Marker) : g.Before (g.move g.state pos t runs markers) :=
  ⟨Nat.le_of_lt hlt, fun _ => ⟨hlt, rfl⟩, fun hin => (hout hin).elim⟩

end

end Stage

namespace Language

/-- What a round does at a place inside of the text. -/
def roundAt? (l : Language) (text : String) (g : Stage) (c : Cursor) :
    Option (Stage ⊕ (Highlight × Contexts)) :=
  if g.state.isInside then
    match l.resume? g.state g.contexts with
    | none => some (.inl (g.move .normal g.pos g.contexts [] []))
    | some (k, p) =>
      match k.findEnd p c with
      | none =>
        some (.inr (g.finish g.state g.contexts (runBetween g.pos text.utf8ByteSize k.kind) []))
      | some e =>
        some (.inl (g.move .normal e.stop.offset g.contexts
          (runBetween g.pos e.stop.offset k.kind) (markerAt e.start.offset (-k.region))))
  else
    match l.nextToken c with
    | none => some (.inr (g.finish g.state g.contexts [] []))
    | some (.rule r m) =>
      some (.inl (g.move g.state m.stop.offset g.contexts
        (runBetween m.start.offset m.stop.offset r.kind) (markerAt m.start.offset r.fold)))
    | some (.construct k m) => do
      let start ← Cursor.at? text m.start.offset
      let stop ← Cursor.at? text m.stop.offset
      let opened := k.openState start g.contexts
      match (k.endPattern? opened.1 opened.2).bind (k.findEnd · stop) with
      | none =>
        some (.inr (g.finish opened.1 opened.2
          (runBetween m.start.offset text.utf8ByteSize k.kind)
          (markerAt m.start.offset k.region)))
      | some e =>
        some (.inl (g.move g.state e.stop.offset opened.2
          (runBetween m.start.offset e.stop.offset k.kind)
          (markerAt m.start.offset k.region ++ markerAt e.start.offset (-k.region))))

/-- One round of the scan of a text.  It fails when a search would begin anywhere but between two
characters. -/
def scanRound? (l : Language) (text : String) (g : Stage) :
    Option (Stage ⊕ (Highlight × Contexts)) :=
  if l.plain then some (.inr (.blank, g.contexts))
  else if text.utf8ByteSize ≤ g.pos then some (.inr (g.finish g.state g.contexts [] []))
  else do
    let c ← Cursor.at? text g.pos
    l.roundAt? text g c

variable {l : Language} {text : String} {g g' : Stage} {c : Cursor}

/-- A round that goes on comes to a place, and moves on to it or leaves a construct. -/
theorem roundAt?_next (hc : Ahead (.ofString text) c) (hpos : c.offset = g.pos)
    (h : l.roundAt? text g c = some (.inl g')) :
    g.Before g' ∧ String.Pos.Raw.IsValid text ⟨g'.pos⟩ := by
  unfold roundAt? at h
  split at h
  · next hin =>
    split at h
    · cases h
      exact ⟨Stage.before_leave hin (Nat.le_refl _) _ _ _, hpos ▸ hc.isValid.2⟩
    · next k p hr =>
      split at h
      · cases h
      · next e he =>
        cases h
        obtain ⟨hce, hee⟩ := Construct.findEnd_ahead he
        have hle := (hce.trans hee).offset_le
        exact ⟨Stage.before_leave hin (hpos ▸ hle) _ _ _, (hc.trans (hce.trans hee)).isValid.2⟩
  · next hout =>
    split at h
    · cases h
    · next r m hn =>
      cases h
      obtain ⟨hcm, hmm, hlt⟩ := Pattern.findFilled_ahead (nextToken_rule hn).2
      have hle := hcm.offset_le
      exact ⟨Stage.before_move hout (by omega) _ _ _, (hc.trans (hcm.trans hmm)).isValid.2⟩
    · next k m hn =>
      obtain ⟨start, -, h⟩ := Option.bind_eq_some_iff.1 h
      obtain ⟨stop, hstop, h⟩ := Option.bind_eq_some_iff.1 h
      obtain ⟨hahead, hoffset⟩ := Cursor.ahead_of_at? hstop
      dsimp only at h
      split at h
      · cases h
      · next e he =>
        cases h
        obtain ⟨hcm, -, hlt⟩ := Pattern.findFilled_ahead (nextToken_construct hn).2
        obtain ⟨hme, hee⟩ := Construct.bind_findEnd_ahead he
        have hle := hcm.offset_le
        have hend := (hme.trans hee).offset_le
        exact ⟨Stage.before_move hout (by omega) _ _ _, (hahead.trans (hme.trans hee)).isValid.2⟩

theorem scanRound?_next (h : l.scanRound? text g = some (.inl g')) :
    g.Before g' ∧ String.Pos.Raw.IsValid text ⟨g'.pos⟩ := by
  unfold scanRound? at h
  split at h
  · cases h
  · split at h
    · cases h
    · obtain ⟨c, hc, h⟩ := Option.bind_eq_some_iff.1 h
      obtain ⟨hahead, hoffset⟩ := Cursor.ahead_of_at? hc
      exact roundAt?_next hahead hoffset h

/-- At the end of the text, the scan is over. -/
theorem scanRound?_atEnd (hl : ¬l.plain = true) (hc : Ahead (.ofString text) c)
    (hpos : c.offset = g.pos) (hend : c.atEnd = true) :
    l.scanRound? text g = some (.inr (g.finish g.state g.contexts [] [])) := by
  have hsize := hc.endOffset_eq
  rw [Cursor.endOffset_ofString, Cursor.endOffset, List.isEmpty_iff.1 hend] at hsize
  rw [scanRound?, if_neg hl, if_pos (by rw [← hsize, ← hpos]; exact Nat.le_refl _)]

/-- At a place that is not the end of the text, a round does what it does there. -/
theorem scanRound?_at (hl : ¬l.plain = true) (hc : Ahead (.ofString text) c)
    (hpos : c.offset = g.pos) (hend : ¬c.atEnd = true) :
    l.scanRound? text g = l.roundAt? text g c := by
  have hlt := Cursor.offset_lt_endOffset hend
  rw [hc.endOffset_eq, Cursor.endOffset_ofString] at hlt
  rw [scanRound?, if_neg hl, if_neg (by omega), ← hpos, hc.at?_offset]
  rfl

/-- The rounds of a scan come to what it finds. -/
theorem scanFrom_ends (hl : ¬l.plain = true) (t : Contexts) (s : LineState)
    (hc : Ahead (.ofString text) c) (runs : List Run) (markers : List Marker) :
    ∃ gs, Ends (l.scanRound? text) ⟨s, c.offset, t, runs, markers⟩ gs
      ((l.scanFrom t s c).1.after runs markers, (l.scanFrom t s c).2) := by
  induction t, s, c using scanFrom.induct l generalizing runs markers with
  | case1 t s c hend =>
    have hround := scanRound?_atEnd (g := ⟨s, c.offset, t, runs, markers⟩) hl hc rfl hend
    rw [scanFrom_atEnd l t s c hend]
    exact ⟨_, .done hround⟩
  | case2 t s c hend hin hr ih =>
    have hround := scanRound?_at (g := ⟨s, c.offset, t, runs, markers⟩) hl hc rfl hend
    simp only [roundAt?, if_pos hin, hr, Stage.move, List.append_nil] at hround
    obtain ⟨gs, hends⟩ := ih hc runs markers
    rw [scanFrom_lost l t s c hend hin hr]
    exact ⟨_, .next hround hends⟩
  | case3 t s c hend hin k p hr he =>
    have hround := scanRound?_at (g := ⟨s, c.offset, t, runs, markers⟩) hl hc rfl hend
    simp only [roundAt?, if_pos hin, hr, he] at hround
    rw [scanFrom_inside l t s c hend hin hr he, hc.endOffset_eq, Cursor.endOffset_ofString]
    exact ⟨_, .done hround⟩
  | case4 t s c hend hin k p hr e he _ _ _ ih =>
    have hround := scanRound?_at (g := ⟨s, c.offset, t, runs, markers⟩) hl hc rfl hend
    simp only [roundAt?, if_pos hin, hr, he] at hround
    obtain ⟨hce, hee⟩ := Construct.findEnd_ahead he
    obtain ⟨gs, hends⟩ := ih (hc.trans (hce.trans hee)) _ _
    rw [scanFrom_leaves l t s c hend hin hr he, Highlight.after_after]
    exact ⟨_, .next hround hends⟩
  | case5 t s c hend hin hn =>
    have hround := scanRound?_at (g := ⟨s, c.offset, t, runs, markers⟩) hl hc rfl hend
    simp only [roundAt?, if_neg hin, hn] at hround
    rw [scanFrom_blank l t s c hend hin hn]
    exact ⟨_, .done hround⟩
  | case6 t s c hend hin r m hn _ _ _ ih =>
    have hround := scanRound?_at (g := ⟨s, c.offset, t, runs, markers⟩) hl hc rfl hend
    simp only [roundAt?, if_neg hin, hn] at hround
    obtain ⟨hcm, hmm, -⟩ := Pattern.findFilled_ahead (nextToken_rule hn).2
    obtain ⟨gs, hends⟩ := ih (hc.trans (hcm.trans hmm)) _ _
    rw [scanFrom_rule l t s c hend hin hn, Highlight.after_after]
    exact ⟨_, .next hround hends⟩
  | case7 t s c hend hin k m hn _ he =>
    obtain ⟨hcm, hmm, -⟩ := Pattern.findFilled_ahead (nextToken_construct hn).2
    have hstart := hc.trans hcm
    have hround := scanRound?_at (g := ⟨s, c.offset, t, runs, markers⟩) hl hc rfl hend
    simp only [roundAt?, if_neg hin, hn, hstart.at?_offset, (hstart.trans hmm).at?_offset,
      Option.bind_eq_bind, Option.bind_some] at hround
    rw [he] at hround
    rw [scanFrom_opens l t s c hend hin hn he, hc.endOffset_eq, Cursor.endOffset_ofString]
    exact ⟨_, .done hround⟩
  | case8 t s c hend hin k m hn _ e he _ _ _ ih =>
    obtain ⟨hcm, hmm, -⟩ := Pattern.findFilled_ahead (nextToken_construct hn).2
    obtain ⟨hme, hee⟩ := Construct.bind_findEnd_ahead he
    have hstart := hc.trans hcm
    have hstop := hstart.trans hmm
    have hround := scanRound?_at (g := ⟨s, c.offset, t, runs, markers⟩) hl hc rfl hend
    simp only [roundAt?, if_neg hin, hn, hstart.at?_offset, hstop.at?_offset,
      Option.bind_eq_bind, Option.bind_some] at hround
    rw [he] at hround
    obtain ⟨gs, hends⟩ := ih (hstop.trans (hme.trans hee)) _ _
    rw [scanFrom_spans l t s c hend hin hn he, Highlight.after_after]
    exact ⟨_, .next hround hends⟩

theorem scan_ends (l : Language) (t : Contexts) (s : LineState) (text : String) :
    ∃ gs, Ends (l.scanRound? text) (.start t s) gs (l.scan t s text) := by
  unfold scan
  split
  · next hl => exact ⟨_, .done (by rw [scanRound?, if_pos hl]; rfl)⟩
  · next hl => exact scanFrom_ends hl t s .here [] []

/-- Whatever the language, its constructs and patterns, the table, the state and the text are, a
search for an end and a scan come to what they find in rounds of which none fails.  From every place
the search goes on to later and later boundaries, until it is past the end of the text.  The scan
goes from boundary to boundary too, never back; outside of constructs each of its rounds moves on,
and after a round that began inside of one the state is normal for good. -/
theorem scanning_ends (l : Language) (t : Contexts) (s : LineState) (text : String) :
    (∀ (k : Construct) (p : Pattern) (c : Cursor), Ahead (.ofString text) c → ∃ ns,
      Ends (Construct.endRound? k.escape p text c.offset) c.offset ns (k.findEnd p c) ∧
      ns.Pairwise (· < ·) ∧
      ∀ n ∈ ns, n ≤ text.utf8ByteSize → String.Pos.Raw.IsValid text ⟨n⟩) ∧
    ∃ gs, Ends (l.scanRound? text) (.start t s) gs (l.scan t s text) ∧
      gs.Pairwise Stage.Before ∧ ∀ g ∈ gs, String.Pos.Raw.IsValid text ⟨g.pos⟩ := by
  constructor
  · intro k p c hc
    obtain ⟨ns, hends⟩ := Construct.findUnescaped_ends k.escape p hc .here
    have hsorted := hends.pairwise (R := (· < ·)) (fun _ _ _ => Nat.lt_trans)
      fun _ _ h => (Construct.lt_of_endRound? h).1
    exact ⟨ns, hends, hsorted.1,
      hends.invariant (fun _ _ h _ => (Construct.lt_of_endRound? h).2) fun _ => hc.isValid.2⟩
  · obtain ⟨gs, hends⟩ := l.scan_ends t s text
    have hsorted := hends.pairwise (R := Stage.Before) (fun _ _ _ => Stage.Before.trans)
      fun _ _ h => (scanRound?_next h).1
    have hstart := (Ahead.here (c := .ofString text)).isValid.2
    exact ⟨gs, hends, hsorted.1, hends.invariant (fun _ _ h _ => (scanRound?_next h).2) hstart⟩

/-- A construct for examples: from a quote to the next edge of a word. -/
def word : Construct :=
  ⟨"word", ⟨"'", .one (.single '\'')⟩, .fixed ⟨"\\b", .look .wordEdge⟩, .string, some '\\', 1, 0⟩

/-- A text for examples, and the place behind its quote. -/
def accented : String × Cursor :=
  ("'\\é", ⟨1, some '\'', ['\\', 'é']⟩)

/-- The edge before the letter is escaped and holds no character, and the letter takes two bytes:
the search goes on behind it.  The scan begins in a state that no construct has. -/
theorem scanning_ends_word :
    Ahead (.ofString accented.1) accented.2 ∧
    (∃ ns, Ends (Construct.endRound? word.escape ⟨"\\b", .look .wordEdge⟩ accented.1 1) 1 ns
        (word.findEnd ⟨"\\b", .look .wordEdge⟩ accented.2) ∧
      ns.Pairwise (· < ·) ∧
      ∀ n ∈ ns, n ≤ 4 → String.Pos.Raw.IsValid accented.1 ⟨n⟩) ∧
    (Construct.endRound? word.escape ⟨"\\b", .look .wordEdge⟩ accented.1 1 1).map Sum.getLeft? =
      some (some 4) ∧
    ((Language.named "words").addConstruct word).scan ⟨[], 0⟩ ⟨7, none⟩ accented.1 =
      (⟨[⟨0, 4, TokenKind.string.id⟩], [], .normal⟩, ⟨[], 0⟩) := by
  have hplace : Ahead (.ofString accented.1) accented.2 :=
    Cursor.ahead_skip (.ofString accented.1) 1
  obtain ⟨hsearch, -⟩ := scanning_ends ((Language.named "words").addConstruct word) ⟨[], 0⟩
    ⟨7, none⟩ accented.1
  exact ⟨hplace, hsearch word ⟨"\\b", .look .wordEdge⟩ accented.2 hplace, by decide +kernel,
    by decide +kernel⟩

end Language

end Highlighting

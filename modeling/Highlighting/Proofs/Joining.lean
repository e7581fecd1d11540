import Highlighting.Proofs.Refusals
import Highlighting.Proofs.Sides

/-!
# Joining several lines

Joining lines `first` to `last` to the ones after them goes downwards, and each joining leaves a
line less below.  What stays the same is that the lines still to be joined end with the one that all
the joined ones have become.  At the end of the text there is no line after the last, which is
joined to the one before instead; then each joining takes one line before the one that it is asked
for.

    a ++ [x] ++ b with x for all that was joined so far, and so for the rest   (exists_unwrapEach)
    front ++ joined ++ back  →  front ++ Line.joinAll joined :: back           (unwrapLines_spec)
    the texts, in the three cases that there are                              (unwrapLines_joins)
    all other lines stay, each on its side of the watermark               (split_join_keep_sides)
-/

namespace Highlighting

namespace Line

/-- All lines in one, with the annotations of the first. -/
def joinAll : List Line → Line
  | [] => .blank
  | l :: ls => { l with text := String.join ((l :: ls).map (·.text)) }

@[simp] theorem joinAll_text (ls : List Line) :
    (joinAll ls).text = String.join (ls.map (·.text)) := by
  cases ls <;> rfl

@[simp] theorem joinAll_singleton (l : Line) : joinAll [l] = l := by
  simp [joinAll]

/-- Two of the lines may be joined first. -/
theorem joinAll_append (ls : List Line) (a b : Line) :
    joinAll (ls ++ [a.append b]) = joinAll (ls ++ [a, b]) := by
  cases ls <;> simp [joinAll, append, String.join_append]

end Line

namespace Buffer

theorem lineCount_of_lines {b : Buffer} {front mid back : List Line}
    (h : b.lineList = front ++ mid ++ back) :
    b.lineCount = front.length + mid.length + back.length := by
  rw [← b.lineList_length, h, List.length_append, List.length_append]

/-! ## One line after the other -/

/-- Joins `k` lines from `first` on, each to the one after it; or, when they end with the last line,
each to the one before it. -/
theorem exists_unwrapEach {b : Buffer} (s : Shared) (he : b.store.editing = true)
    {front mid back : List Line} {first k : Nat} (hl : b.lineList = front ++ mid ++ back)
    (hmid : mid.length = k + 1)
    (hfirst : first = front.length ∨ first = front.length + 1 ∧ back = []) :
    ∃ b' s', b.unwrapEach s (List.range' first k).reverse = ⟨.ok (), b', s'⟩ ∧
      b'.lineList = front ++ Line.joinAll mid :: back ∧
      b.Shifts s b' s' ⟨front.length, mid.length, 1⟩ := by
  have hcount := lineCount_of_lines hl
  induction k generalizing b s mid with
  | zero =>
    obtain ⟨l, rfl⟩ := List.length_eq_one_iff.1 hmid
    exact ⟨b, s, rfl, by simpa using hl, .refl b s front.length 1 (by simp at hcount; omega)⟩
  | succ k ih =>
    -- the last two of the lines are joined first
    obtain ⟨pre, u, v, rfl⟩ : ∃ pre u v, mid = pre ++ [u, v] := by
      rcases List.eq_nil_or_concat mid with rfl | ⟨mid', v, rfl⟩
      · cases hmid
      · rcases List.eq_nil_or_concat mid' with rfl | ⟨pre, u, rfl⟩
        · simp at hmid
        · exact ⟨pre, u, v, by simp⟩
    have hpre : pre.length = k := by simpa using hmid
    have hpair : b.store.lineList = (front ++ pre) ++ u :: v :: back := by
      rw [show b.store.lineList = _ from hl]
      simp
    obtain ⟨t, ht, hediting, hlines⟩ := TextStore.unwrap_at he hpair
    rw [List.length_append, hpre] at ht
    obtain ⟨b₁, s₁, hrun, rfl, hshifts⟩ := shifts_unwrap s ht
    have hone : b.unwrapOne s (first + k) = ⟨.ok (), b₁, s₁⟩ := by
      rw [hmid] at hcount
      unfold unwrapOne
      rcases hfirst with rfl | ⟨rfl, rfl⟩
      · rw [if_pos (by omega), hrun]
      · rw [List.length_nil] at hcount
        rw [if_neg (by omega), if_pos (by omega), Nat.add_right_comm, hrun]
    have hrest : b₁.lineList = front ++ (pre ++ [u.append v]) ++ back := by
      rw [show b₁.lineList = _ from hlines]
      simp
    obtain ⟨b', s', hrun', hlines', hshifts'⟩ := ih s₁ hediting hrest (by simp [hpre])
      (lineCount_of_lines hrest)
    refine ⟨b', s', ?_, ?_, ?_⟩
    · rw [reverse_range'_succ, unwrapEach_cons, hone]
      exact hrun'
    · rw [hlines', Line.joinAll_append]
    · rw [List.length_append, List.length_singleton, hpre] at hshifts'
      rw [hmid]
      exact hshifts.trans hshifts' (by omega) (by omega)

/-! ## A range of lines -/

variable {b : Buffer} (s : Shared) {first last : Nat}

/-- The lines that are joined are those from `first` to the one after `last`; at the end of the text
there is none after it, and they begin with the one before `first`, if there is one. -/
theorem unwrapLines_spec (he : b.store.editing = true) (hle : first ≤ last)
    (hlast : last < b.lineCount) {front mid back : List Line}
    (hl : b.lineList = front ++ mid ++ back)
    (hfront : front.length = if last + 1 < b.lineCount then first else first - 1)
    (hback : back.length = b.lineCount - (last + 2)) :
    ∃ b' s', b.unwrapLines s first last = ⟨.ok (), b', s'⟩ ∧
      b'.lineList = front ++ Line.joinAll mid :: back ∧
      b.Shifts s b' s' ⟨front.length, mid.length, 1⟩ := by
  have hcount := lineCount_of_lines hl
  unfold unwrapLines
  rw [if_neg (Nat.not_lt.2 hle), if_neg (Nat.not_le.2 hlast)]
  by_cases hinside : last + 1 < b.lineCount
  · rw [if_pos hinside] at hfront
    exact exists_unwrapEach s he hl (by omega) (.inl hfront.symm)
  · rw [if_neg hinside] at hfront
    obtain rfl : back = [] := List.length_eq_zero_iff.1 (by omega)
    rw [List.length_nil] at hcount
    rcases Nat.eq_zero_or_pos first with rfl | hpos
    · -- the first line comes last, and is the only one by then
      obtain rfl : front = [] := List.length_eq_zero_iff.1 (by omega)
      rw [List.length_nil] at hcount
      obtain ⟨b', s', hrun, hlines, hshifts⟩ :=
        exists_unwrapEach (k := last) s he hl (by omega) (.inr ⟨(rfl : 1 = _), rfl⟩)
      have honly : b'.lineCount = 1 := by rw [← b'.lineList_length, hlines]; rfl
      have hrange : (List.range' 0 (last + 1 - 0)).reverse =
          (List.range' 1 last).reverse ++ [0] := by
        rw [Nat.sub_zero, List.range'_succ, List.reverse_cons]
      refine ⟨b', s', ?_, hlines, hshifts⟩
      rw [hrange, unwrapEach_append hrun, unwrapEach_cons]
      simp [unwrapOne, honly, unwrapEach]
    · exact exists_unwrapEach s he hl (by omega) (.inr ⟨by omega, rfl⟩)

/-- Lines `start` to `stop - 1` become one, and all others stay. -/
theorem texts_unwrapLines (he : b.store.editing = true) (hle : first ≤ last)
    (hlast : last < b.lineCount) {start stop : Nat}
    (hstart : start = if last + 1 < b.lineCount then first else first - 1)
    (hstop : stop = min (last + 2) b.lineCount) :
    ∃ b' s', b.unwrapLines s first last = ⟨.ok (), b', s'⟩ ∧
      b'.texts = b.texts.take start ++ [String.join (b.texts.extract start stop)] ++
        b.texts.drop stop ∧
      b.Shifts s b' s' ⟨start, stop - start, 1⟩ := by
  have hle' : start ≤ stop := by split at hstart <;> omega
  have hdrop : (b.lineList.drop start).drop (stop - start) = b.lineList.drop stop := by
    rw [List.drop_drop, Nat.add_sub_cancel' hle']
  have hsplit : b.lineList =
      b.lineList.take start ++ b.lineList.extract start stop ++ b.lineList.drop stop := by
    rw [List.extract_eq_take_drop, ← hdrop, List.append_assoc, List.take_append_drop,
      List.take_append_drop]
  have hfront : (b.lineList.take start).length = start := by
    rw [List.length_take, lineList_length]
    split at hstart <;> omega
  have hmid : (b.lineList.extract start stop).length = stop - start := by
    rw [List.extract_eq_take_drop, List.length_take, List.length_drop, lineList_length]
    omega
  obtain ⟨b', s', hrun, hlines, hshifts⟩ := unwrapLines_spec s he hle hlast hsplit
    (hfront.trans hstart) (by rw [List.length_drop, lineList_length]; omega)
  rw [hfront, hmid] at hshifts
  refine ⟨b', s', hrun, ?_, hshifts⟩
  rw [texts, texts, hlines]
  simp [List.map_take, List.map_drop, List.extract_eq_take_drop]

/-- **Exactly the lines that are named are joined.**  Let a transaction be open, and let lines
`first` to `last` be there.  Then joining them succeeds.  If there is a line after `last`, they are
joined to that one.  If there is none but one before `first`, they are joined to that one, and if
there is neither, all lines become one. -/
theorem unwrapLines_joins (he : b.store.editing = true) (hle : first ≤ last)
    (hlast : last < b.lineCount) :
    (b.unwrapLines s first last).result = .ok () ∧
    (last + 1 < b.lineCount → (b.unwrapLines s first last).buffer.texts =
      b.texts.take first ++ [String.join (b.texts.extract first (last + 2))] ++
        b.texts.drop (last + 2)) ∧
    (last + 1 = b.lineCount → 0 < first → (b.unwrapLines s first last).buffer.texts =
      b.texts.take (first - 1) ++ [String.join (b.texts.drop (first - 1))]) ∧
    (last + 1 = b.lineCount → first = 0 → (b.unwrapLines s first last).buffer.texts =
      [String.join b.texts]) := by
  obtain ⟨b', s', hrun, htexts, -⟩ := texts_unwrapLines s he hle hlast rfl rfl
  rw [hrun]
  refine ⟨rfl, fun hlt => ?_, fun hend hpos => ?_, fun hend hzero => ?_⟩
  · rw [if_pos hlt, Nat.min_eq_left (by omega)] at htexts
    exact htexts
  all_goals
    -- nothing comes after the last line
    have hrest : b.texts.extract (first - 1) b.texts.length = b.texts.drop (first - 1) := by
      rw [List.extract_eq_take_drop, ← List.length_drop, List.take_length]
    rw [if_neg (by omega), Nat.min_eq_right (by omega), ← b.texts_length, hrest,
      List.drop_length, List.append_nil] at htexts
  · exact htexts
  · subst hzero
    exact htexts

/-- A buffer of five lines, with a transaction open. -/
def fiveLines : Buffer :=
  ((create 8 4 0 (.fresh 0)).1.setText "a\nb\nc\nd\ne").editStart

theorem unwrapLines_joins_fiveLines :
    (fiveLines.unwrapLines (.fresh 0) 1 2).buffer.texts = ["a", "bcd", "e"] ∧
      (fiveLines.unwrapLines (.fresh 0) 3 4).buffer.texts = ["a", "b", "cde"] ∧
      (fiveLines.unwrapLines (.fresh 0) 0 4).buffer.texts = ["abcde"] := by
  have hediting : fiveLines.store.editing = true := rfl
  have hcount : fiveLines.lineCount = 5 := by decide +kernel
  obtain ⟨-, hinside, -⟩ :=
    unwrapLines_joins (.fresh 0) hediting (show 1 ≤ 2 by decide) (by omega)
  obtain ⟨-, -, hend, -⟩ :=
    unwrapLines_joins (.fresh 0) hediting (show 3 ≤ 4 by decide) (by omega)
  obtain ⟨-, -, -, hall⟩ :=
    unwrapLines_joins (.fresh 0) hediting (show 0 ≤ 4 by decide) (by omega)
  rw [hinside (by omega), hend (by omega) (by decide), hall (by omega) rfl]
  decide +kernel

/-! ## What is left around it -/

/-- An operation that splits or joins lines, called as it may be, succeeds and shifts. -/
theorem shifts_of_admits {op : BufferOp} {r : Stretch} (hop : op.stretch? b.lineCount = some r)
    (hadmits : b.Admits op) :
    ∃ b' s', Session.runOnBuffer b s op = ⟨.ok .done, b', s'⟩ ∧ b.Shifts s b' s' r := by
  cases op with
  | wrap line col =>
    obtain ⟨t, ht⟩ := (b.store.wrap_ok_iff line col).2 hadmits
    obtain ⟨b', s', hrun, hshifts⟩ := shifts_wrap s ht
    obtain rfl := Option.some.inj hop
    exact ⟨b', s', by simp only [Session.runOnBuffer, hrun]; rfl, hshifts⟩
  | unwrap line =>
    obtain ⟨t, ht⟩ := (b.store.unwrap_ok_iff line).2 hadmits
    obtain ⟨b', s', hrun, -, hshifts⟩ := shifts_unwrap s ht
    obtain rfl := Option.some.inj hop
    exact ⟨b', s', by simp only [Session.runOnBuffer, hrun]; rfl, hshifts⟩
  | unwrapLines first last =>
    obtain ⟨hle, hlast, hediting⟩ := hadmits
    simp only [BufferOp.stretch?] at hop
    by_cases hone : b.lineCount = 1
    · obtain rfl : first = 0 := by omega
      obtain rfl : last = 0 := by omega
      rw [if_pos hone] at hop
      obtain rfl := Option.some.inj hop
      refine ⟨b, s, ?_, .refl b s 0 0 (Nat.zero_le _)⟩
      simp [Session.runOnBuffer, unwrapLines, hone, unwrapEach]
      rfl
    · obtain ⟨b', s', hrun, -, hshifts⟩ :=
        texts_unwrapLines s (hediting.resolve_right hone) hle hlast rfl rfl
      refine ⟨b', s', by simp only [Session.runOnBuffer, hrun]; rfl, ?_⟩
      rw [if_neg hone] at hop
      split at hop
      · next hinside =>
        obtain rfl := Option.some.inj hop
        rwa [if_pos hinside, Nat.min_eq_left (by omega)] at hshifts
      · next hend =>
        obtain rfl := Option.some.inj hop
        rwa [if_neg hend, Nat.min_eq_right (by omega)] at hshifts
  | _ => cases hop

end Buffer

namespace Session

/-- **Splitting and joining lines keep all others on their side of the watermark.**  In every
session, when a line is split, or two or several lines are joined, every other line keeps its text,
its annotations, the state at its end and its flag; and at its new place it lies before the
watermark exactly when it did so at its old one. -/
theorem split_join_keep_sides {s : Session} {name : String} {b : Buffer}
    (hb : s.buffers.lookup name = some b) {op : BufferOp} {r : Stretch}
    (hop : op.stretch? b.lineCount = some r) {a : Answer}
    (hok : (s.step (.buffer name op)).1 = .ok a) :
    ∃ b', (s.step (.buffer name op)).2.buffers.lookup name = some b' ∧
      b.Shifts s.shared b' (s.step (.buffer name op)).2.shared r := by
  rw [step_buffer hb] at hok ⊢
  have hadmits : b.Admits op := by
    by_contra hnot
    obtain ⟨e, he⟩ := (Buffer.refuses_of_not_admits (s := s.shared) hnot).result
    rw [he] at hok
    cases hok
  obtain ⟨b', s', hrun, hshifts⟩ := Buffer.shifts_of_admits s.shared hop hadmits
  rw [hrun]
  exact ⟨b', lookup_put name b' s.buffers, hshifts⟩

/-- A session with one buffer of five lines, three of them highlighted, and a transaction open. -/
def threeOfFive : Session :=
  (start 0 .standard).after
    [.define "braces" (.ok .braces) false, .newBuffer "text" (some "\x7b\nb\nc\nd\n\x7d") none,
      .useHandle "text" "braces", .buffer "text" (.ensure 2 0), .buffer "text" .editStart]

theorem split_join_keep_sides_threeOfFive :
    ∃ b b', threeOfFive.buffers.lookup "text" = some b ∧
      b.highlightedUpTo threeOfFive.shared = 3 ∧
      (threeOfFive.step (.buffer "text" (.unwrapLines 0 0))).2.buffers.lookup "text" = some b' ∧
      b.Shifts threeOfFive.shared b'
        (threeOfFive.step (.buffer "text" (.unwrapLines 0 0))).2.shared ⟨0, 2, 1⟩ := by
  obtain ⟨b, hb⟩ : ∃ b, threeOfFive.buffers.lookup "text" = some b := ⟨_, rfl⟩
  have hstate : threeOfFive.buffers.all (fun e =>
      e.2.highlightedUpTo threeOfFive.shared == 3 && e.2.lineCount == 5 &&
        e.2.store.editing) = true := by
    decide +kernel
  have hone := List.all_eq_true.1 hstate _ (mem_of_lookup hb)
  simp only [Bool.and_eq_true, beq_iff_eq] at hone
  obtain ⟨⟨hupTo, hcount⟩, hediting⟩ := hone
  have hstretch : BufferOp.stretch? b.lineCount (.unwrapLines 0 0) = some ⟨0, 2, 1⟩ := by
    rw [hcount]
    rfl
  have hok : (threeOfFive.step (.buffer "text" (.unwrapLines 0 0))).1 = .ok .done := by
    obtain ⟨b₁, s₁, hrun, -⟩ := Buffer.shifts_of_admits threeOfFive.shared hstretch
      ⟨Nat.le_refl 0, by omega, .inl hediting⟩
    rw [step_buffer hb, hrun]
    rfl
  obtain ⟨b', hb', hshifts⟩ := split_join_keep_sides hb hstretch hok
  exact ⟨b, b', hb, hupTo, hb', hshifts⟩

end Session

end Highlighting

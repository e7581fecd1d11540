import Highlighting.Proofs.FromScratch
import Highlighting.Text.Store

/-!
# What an edit does to the lines

Every edit replaces a stretch of lines by others and notes it.  `Spliced` says this once: which
lines went and came, and how the window of changed lines moved along.  Each edit of a store is of
that form, or changes nothing:

    t.insert n … = .ok t'      →  one line for line n                                (insert_inv)
    t.remove n … = .ok …       →  one line for line n                                (remove_inv)
    t.wrap n … = .ok t'        →  two lines for line n                                 (wrap_inv)
    t.unwrap (n + 1) = .ok t'  →  one line for lines n and n + 1                     (unwrap_inv)

Lines outside the window, and not right after it, keep their links under an edit   (Spliced.links).
-/

namespace Highlighting.TextStore

/-- The lines of a store, in order. -/
def lineList (t : TextStore) : List Line :=
  t.lines.toList

@[simp] theorem lineList_length (t : TextStore) : t.lineList.length = t.lines.size := rfl

/-- Line `n` may have lost its annotations in the open transaction: it lies in the window of changed
lines, or is the line after it. -/
def Touched (t : TextStore) (n : Nat) : Prop :=
  t.editing = true ∧
    ∃ first last, t.first = some first ∧ t.last = some last ∧ first ≤ n ∧ n ≤ last + 1

/-- The window of changed lines is there when something was changed, and lies the right way round;
while a transaction is open it begins at a line. -/
structure Framed (t : TextStore) : Prop where
  lines_pos : 0 < t.lines.size
  unchanged : t.changed = false → t.first = none ∧ t.last = none
  changed : t.changed = true →
    ∃ first last, t.first = some first ∧ t.last = some last ∧ first ≤ last

/-- The first changed line once line `n` has been changed as well. -/
def firstWith (t : TextStore) (n : Nat) : Nat :=
  match t.first with
  | some first => min first n
  | none => n

theorem firstWith_le (t : TextStore) (n : Nat) : t.firstWith n ≤ n := by
  unfold firstWith
  split <;> omega

theorem firstWith_le_first (t : TextStore) (n first : Nat) (h : t.first = some first) :
    t.firstWith n ≤ first := by
  simp only [firstWith, h]
  omega

/-- `t'` is `t` with `new` in place of the lines from `n` to `n + old - 1`, and with that noted. -/
structure Spliced (t t' : TextStore) (n old : Nat) (new : List Line) : Prop where
  editing : t.editing = true
  depth : t'.depth = t.depth
  changed : t'.changed = true
  inside : n + old ≤ t.lines.size
  replaced : 0 < old
  nonempty : 0 < new.length
  lines : t'.lineList = t.lineList.take n ++ new ++ t.lineList.drop (n + old)
  ends : ∀ x ∈ new, x.endState = .normal ∨ ∃ y ∈ t.lineList, y.endState = x.endState
  first : t'.first = some (t.firstWith n)
  /-- The window reaches over the new lines, and its end moves with the lines after them. -/
  reach : ∃ last, t'.last = some last ∧
    last + old = max (t.last.getD 0) (n + old - 1) + new.length

/-! ## Edits are splices -/

theorem line_eq_ok (t : TextStore) (n : Nat) (l : Line) (h : t.line n = .ok l) :
    t.lines[n]? = some l := by
  unfold line at h
  split at h
  · next x hx => rw [hx, Except.ok.inj h]
  · cases h

/-- Another text for line `n` is a splice. -/
theorem spliced_retext (t : TextStore) (n : Nat) (l : Line) (text : String)
    (he : t.editing = true) (hl : t.lines[n]? = some l) :
    Spliced t ({ t with lines := t.lines.setIfInBounds n { l with text := text } }.note n
      (t.lastWith n)) n 1 [{ l with text := text }] := by
  obtain ⟨hn, rfl⟩ := Array.getElem?_eq_some_iff.1 hl
  refine ⟨he, rfl, rfl, hn, Nat.one_pos, by simp, ?_, ?_, rfl, ⟨t.lastWith n, rfl, ?_⟩⟩
  · have hn : n < t.lines.toList.length := hn
    simp only [lineList, note, Array.toList_setIfInBounds]
    rw [List.set_eq_take_append_cons_drop, if_pos hn]
    simp
  · intro x hx
    obtain rfl := List.mem_singleton.1 hx
    exact .inr ⟨t.lines[n], by simp [lineList], rfl⟩
  · cases hlast : t.last with
    | none => simp [lastWith, hlast]
    | some last => simp [lastWith, hlast]

/-- An insertion of nothing changes nothing, and any other puts the text into its line. -/
theorem insert_inv {t t' : TextStore} {n col : Nat} {s : String}
    (h : t.insert n col s = .ok t') :
    (s = "" ∧ t' = t) ∨
      ∃ l x, t.lines[n]? = some l ∧ l.insert? col s = some x ∧ Spliced t t' n 1 [x] := by
  unfold insert at h
  simp only [bind, Except.bind, pure, Except.pure, throw, throwThe, MonadExceptOf.throw] at h
  split at h
  · cases h
  · next he =>
    split at h
    · cases h
    · split at h
      · next hempty => exact .inl ⟨by simpa using hempty, (Except.ok.inj h).symm⟩
      · split at h
        · cases h
        · next l hl =>
          have hl := t.line_eq_ok n l hl
          split at h
          · cases h
          · next x hx =>
            obtain ⟨⟨a, b⟩, -, rfl⟩ := Option.map_eq_some_iff.1 hx
            rw [← Except.ok.inj h]
            exact .inr ⟨l, _, hl, hx, spliced_retext t n l _ (by simpa using he) hl⟩

/-- A removal of nothing changes nothing, and any other takes the text out of its line. -/
theorem remove_inv {t t' : TextStore} {n start stop : Nat} {removed : String}
    (h : t.remove n start stop = .ok (removed, t')) :
    (start = stop ∧ removed = "" ∧ t' = t) ∨
      ∃ l x, t.lines[n]? = some l ∧ l.delete? start stop = some (removed, x) ∧
        Spliced t t' n 1 [x] := by
  unfold remove at h
  simp only [bind, Except.bind, pure, Except.pure, throw, throwThe, MonadExceptOf.throw] at h
  split at h
  · cases h
  · next he =>
    split at h
    · cases h
    · split at h
      · next heq =>
        obtain ⟨rfl, rfl⟩ := Prod.mk.inj (Except.ok.inj h)
        exact .inl ⟨heq, rfl, rfl⟩
      · split at h
        · cases h
        · next l hl =>
          have hl := t.line_eq_ok n l hl
          split at h
          · cases h
          · next x y hx =>
            obtain ⟨⟨a, c, b⟩, -, heq⟩ := Option.map_eq_some_iff.1 hx
            obtain ⟨-, rfl⟩ := Prod.mk.inj heq
            obtain ⟨rfl, rfl⟩ := Prod.mk.inj (Except.ok.inj h)
            exact .inr ⟨l, _, hl, hx, spliced_retext t n l _ (by simpa using he) hl⟩

/-- Splitting a line leaves its two parts. -/
theorem wrap_inv {t t' : TextStore} {n col : Nat} (h : t.wrap n col = .ok t') :
    ∃ l a b, t.lines[n]? = some l ∧ l.splitOff? col = some (a, b) ∧
      Spliced t t' n 1 [a, b] := by
  unfold wrap at h
  simp only [bind, Except.bind, pure, Except.pure, throw, throwThe, MonadExceptOf.throw] at h
  split at h
  · cases h
  · next he =>
    split at h
    · cases h
    · next l hl =>
      have hl := t.line_eq_ok n l hl
      obtain ⟨hn, rfl⟩ := Array.getElem?_eq_some_iff.1 hl
      split at h
      · cases h
      · next a b hab =>
        obtain ⟨⟨c, d⟩, -, heq⟩ := Option.map_eq_some_iff.1 hab
        obtain ⟨rfl, rfl⟩ := Prod.mk.inj heq
        rw [← Except.ok.inj h]
        refine ⟨t.lines[n], { t.lines[n] with text := c }, .ofText d, hl, hab,
          by simpa using he, rfl, rfl, hn, Nat.one_pos, by simp, ?_, ?_, rfl, ⟨_, rfl, ?_⟩⟩
        · simp [lineList, note, List.take_of_length_le]
        · intro x hx
          rcases List.mem_cons.1 hx with rfl | hx
          · exact .inr ⟨t.lines[n], by simp [lineList], rfl⟩
          · obtain rfl := List.mem_singleton.1 hx
            exact .inl rfl
        · cases hlast : t.last with
          | none => simp
          | some last =>
            simp only [Option.getD_some, List.length_cons, List.length_nil]
            split <;> omega

/-- Joining a line to the one before it leaves one line for the two. -/
theorem unwrap_inv {t t' : TextStore} {n : Nat} (h : t.unwrap n = .ok t') :
    ∃ m a b, n = m + 1 ∧ t.lines[m]? = some a ∧ t.lines[m + 1]? = some b ∧
      Spliced t t' m 2 [a.append b] := by
  unfold unwrap at h
  simp only [bind, Except.bind, pure, Except.pure, throw, throwThe, MonadExceptOf.throw] at h
  split at h
  · cases h
  · next he =>
    split at h
    · next m b a hb ha =>
      have ha : t.lines[m]? = some a := ha
      obtain ⟨hn, rfl⟩ := Array.getElem?_eq_some_iff.1 hb
      obtain ⟨hm, rfl⟩ := Array.getElem?_eq_some_iff.1 ha
      rw [← Except.ok.inj h]
      refine ⟨m, t.lines[m], t.lines[m + 1], rfl, ha, hb, by simpa using he, rfl, rfl, hn,
        Nat.two_pos, by simp, ?_, ?_, rfl, ⟨_, rfl, ?_⟩⟩
      · simp [lineList, note, List.take_of_length_le]
      · intro x hx
        obtain rfl := List.mem_singleton.1 hx
        exact .inr ⟨t.lines[m], by simp [lineList], rfl⟩
      · cases hlast : t.last with
        | none => simp
        | some last =>
          simp only [Option.getD_some, List.length_singleton]
          split <;> omega
    · cases h

theorem insert_cases (t t' : TextStore) (n col : Nat) (s : String)
    (h : t.insert n col s = .ok t') :
    t' = t ∨ ∃ x, Spliced t t' n 1 [x] := by
  rcases insert_inv h with ⟨-, rfl⟩ | ⟨l, x, -, -, hs⟩
  · exact .inl rfl
  · exact .inr ⟨x, hs⟩

theorem remove_cases (t t' : TextStore) (n start stop : Nat) (removed : String)
    (h : t.remove n start stop = .ok (removed, t')) :
    t' = t ∨ ∃ x, Spliced t t' n 1 [x] := by
  rcases remove_inv h with ⟨-, -, rfl⟩ | ⟨l, x, -, -, hs⟩
  · exact .inl rfl
  · exact .inr ⟨x, hs⟩

theorem wrap_cases (t t' : TextStore) (n col : Nat) (h : t.wrap n col = .ok t') :
    ∃ x y, Spliced t t' n 1 [x, y] := by
  obtain ⟨l, a, b, -, -, hs⟩ := wrap_inv h
  exact ⟨a, b, hs⟩

theorem unwrap_cases (t t' : TextStore) (n : Nat) (h : t.unwrap n = .ok t') :
    ∃ m x, n = m + 1 ∧ Spliced t t' m 2 [x] := by
  obtain ⟨m, a, b, rfl, -, -, hs⟩ := unwrap_inv h
  exact ⟨m, _, rfl, hs⟩

/-- The ways of closing a transaction: none is open, it was an inner one, or the outermost. -/
theorem finish_cases (t : TextStore) :
    t.depth = 0 ∧ t.finish = (false, t) ∨
    1 < t.depth ∧ t.finish = (false, { t with depth := t.depth - 1 }) ∨
    t.depth = 1 ∧ t.finish = (true, { t with depth := 0 }) := by
  unfold TextStore.finish
  split
  · next hzero => exact .inl ⟨hzero, rfl⟩
  · by_cases hone : t.depth = 1
    · exact .inr (.inr ⟨hone, by simp [hone]⟩)
    · exact .inr (.inl ⟨by omega, by simp [hone]⟩)

/-! ## What a splice leaves alone -/

namespace Spliced

variable {t t' : TextStore} {n old : Nat} {new : List Line}

/-- The window reaches over the new lines, and as far as before over the lines after them. -/
theorem last (h : Spliced t t' n old new) : ∃ last, t'.last = some last ∧
    n + new.length ≤ last + 1 ∧
    ∀ before, t.last = some before → n + old ≤ before + 1 → before + new.length ≤ last + old := by
  obtain ⟨last, hl, hreach⟩ := h.reach
  have := h.replaced
  refine ⟨last, hl, by omega, fun before hb _ => ?_⟩
  rw [hb, Option.getD_some] at hreach
  omega

theorem editing_after (h : Spliced t t' n old new) : t'.editing = true := by
  have := h.editing
  simp only [TextStore.editing, h.depth] at this ⊢
  exact this

theorem size (h : Spliced t t' n old new) :
    t'.lines.size + old = t.lines.size + new.length := by
  have hlen := congrArg List.length h.lines
  have := h.inside
  simp only [lineList_length, List.length_append, List.length_take, List.length_drop] at hlen
  omega

theorem line_before (h : Spliced t t' n old new) (i : Nat) (hi : i < n) :
    t'.lineList[i]? = t.lineList[i]? := by
  have := h.inside
  rw [h.lines, List.append_assoc, List.getElem?_append_left (by simp; omega),
    List.getElem?_take_of_lt hi]

theorem line_after (h : Spliced t t' n old new) (i : Nat) (hi : n + new.length ≤ i) :
    t'.lineList[i]? = t.lineList[i - new.length + old]? := by
  have := h.inside
  have hlen : (t.lineList.take n ++ new).length = n + new.length := by simp; omega
  rw [h.lines, List.getElem?_append_right (by omega), hlen, List.getElem?_drop]
  congr 1
  omega

theorem ends_mem (h : Spliced t t' n old new) (x : Line) (hx : x ∈ t'.lineList) :
    x.endState = .normal ∨ ∃ y ∈ t.lineList, y.endState = x.endState := by
  rw [h.lines] at hx
  rcases List.mem_append.1 hx with hx | hx
  · rcases List.mem_append.1 hx with hx | hx
    · exact .inr ⟨x, List.mem_of_mem_take hx, rfl⟩
    · exact h.ends x hx
  · exact .inr ⟨x, List.mem_of_mem_drop hx, rfl⟩

theorem framed (h : Spliced t t' n old new) : t'.Framed := by
  obtain ⟨last, hl, hle, -⟩ := h.last
  have := h.nonempty
  have := h.inside
  have := h.size
  refine ⟨by omega, ?_, fun _ => ⟨_, last, h.first, hl, ?_⟩⟩
  · intro hc
    rw [h.changed] at hc; cases hc
  · have := t.firstWith_le n
    omega

/-- The window begins at a line. -/
theorem first_lt (h : Spliced t t' n old new) (first : Nat) (hf : t'.first = some first) :
    first < t'.lines.size := by
  have := h.nonempty
  have := h.inside
  have := h.size
  have := t.firstWith_le n
  rw [h.first] at hf
  obtain rfl := Option.some.inj hf
  omega

/-- What may have lost its annotations before still may, at its new place. -/
theorem touched_before (h : Spliced t t' n old new) (i : Nat) (hi : i < n) (ht : t.Touched i) :
    t'.Touched i := by
  obtain ⟨-, first, last, hf, -, hfi, -⟩ := ht
  obtain ⟨last', hl', hle, -⟩ := h.last
  have := t.firstWith_le_first n first hf
  have := h.nonempty
  exact ⟨h.editing_after, _, last', h.first, hl', by omega, by omega⟩

theorem touched_after (h : Spliced t t' n old new) (i : Nat) (hi : n + new.length ≤ i)
    (ht : t.Touched (i - new.length + old)) : t'.Touched i := by
  obtain ⟨-, first, last, -, hl, -, hil⟩ := ht
  obtain ⟨last', hl', hle, hmove⟩ := h.last
  have := t.firstWith_le n
  have := hmove last hl (by omega)
  exact ⟨h.editing_after, _, last', h.first, hl', by omega, by omega⟩

/-- The new lines and the one after them may have lost their annotations. -/
theorem touched_inside (h : Spliced t t' n old new) (i : Nat) (hn : n ≤ i)
    (hi : i ≤ n + new.length) : t'.Touched i := by
  obtain ⟨last', hl', hle, -⟩ := h.last
  have := t.firstWith_le n
  exact ⟨h.editing_after, _, last', h.first, hl', by omega, by omega⟩

/-- Each line that was linked or may have lost its annotations still is or may, at its new place;
`bound` and `bound'` are frontiers before and after. -/
theorem links (h : Spliced t t' n old new) (l : Language) (c : Contexts) (bound bound' : Nat)
    (hbefore : ∀ i, i < n → i < bound' → i < bound)
    (hafter : ∀ i, n + new.length < i → i < bound' → i - new.length + old < bound)
    (hlinks : ∀ i, i < bound → Linked l c t.lineList i ∨ t.Touched i) (i : Nat)
    (hi : i < bound') : Linked l c t'.lineList i ∨ t'.Touched i := by
  have hpos := h.nonempty
  rcases Nat.lt_or_ge i n with hn | hn
  · rcases hlinks i (hbefore i hn hi) with hlink | ht
    · exact .inl (hlink.congr (h.line_before i hn)
        (stateBefore_congr _ _ i fun j hj => h.line_before j (by omega)))
    · exact .inr (h.touched_before i hn ht)
  · rcases Nat.lt_or_ge (n + new.length) i with hlt | hle
    · rcases hlinks _ (hafter i hlt hi) with hlink | ht
      · refine .inl (hlink.congr (h.line_after i (by omega)) ?_)
        obtain ⟨k, rfl⟩ : ∃ k, i = k + 1 := ⟨i - 1, by omega⟩
        rw [show k + 1 - new.length + old = (k - new.length + old) + 1 by omega]
        simp only [stateBefore, h.line_after k (by omega)]
      · exact .inr (h.touched_after i (by omega) ht)
    · exact .inr (h.touched_inside i hn hle)

end Spliced

end Highlighting.TextStore

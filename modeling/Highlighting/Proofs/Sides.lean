import Highlighting.Proofs.Contracts
import Highlighting.Proofs.Edits
import Highlighting.Proofs.Passes

/-!
# The lines around a split or a join

Splitting a line, or joining two, replaces a stretch of lines by another.  The lines around the
stretch stay as they are, and the frontier moves along with them, so that each stays on its side of
it:

    front ++ l :: back, with l cut into a and b  →  front ++ a :: b :: back             (wrap_at)
    front ++ a :: b :: back                      →  front ++ a.append b :: back       (unwrap_at)
    splitting line n                             →  shifts, two lines for one       (shifts_wrap)
    joining line n to the one before it          →  shifts, one line for two      (shifts_unwrap)
    b.Shifts … b', then b'.Shifts … b'' over it  →  b.Shifts … b''                 (Shifts.trans)

This goes whether a rebuild is pending or not: while one is, nothing is highlighted, and nothing is
after it has been answered.
-/

namespace Highlighting

namespace TextStore

variable {t t' : TextStore} {front back : List Line}

/-! ## Lines in their places -/

theorem lines_at {a : Line} (hl : t.lineList = front ++ a :: back) :
    t.lines[front.length]? = some a := by
  rw [← Array.getElem?_toList, show t.lines.toList = _ from hl]
  simp

theorem exists_at {n : Nat} {l : Line} (hl : t.lines[n]? = some l) :
    ∃ front back, front.length = n ∧ t.lineList = front ++ l :: back := by
  obtain ⟨hn, rfl⟩ := Array.getElem?_eq_some_iff.1 hl
  have hlen : n < t.lineList.length := hn
  refine ⟨t.lineList.take n, t.lineList.drop (n + 1), by simp; omega, ?_⟩
  conv => lhs; rw [← List.take_append_drop n t.lineList, List.drop_eq_getElem_cons hlen]
  rfl

/-- A splice between some first lines and some last ones leaves both. -/
theorem Spliced.between (gone : List Line) {new : List Line}
    (h : Spliced t t' front.length gone.length new) (hl : t.lineList = front ++ gone ++ back) :
    t'.lineList = front ++ new ++ back := by
  have htake : (front ++ gone ++ back).take front.length = front := by
    rw [List.append_assoc, List.take_left]
  have hdrop : (front ++ gone ++ back).drop (front.length + gone.length) = back := by
    rw [← List.length_append, List.drop_left]
  rw [h.lines, hl, htake, hdrop]

section
variable (he : t.editing = true)
include he

theorem insert_at {l x : Line} {col : Nat} {s : String} (hl : t.lineList = front ++ l :: back)
    (hs : '\n' ∉ s.toList) (hx : l.insert? col s = some x) :
    ∃ t', t.insert front.length col s = .ok t' ∧ t'.editing = true ∧
      t'.lineList = front ++ x :: back := by
  obtain ⟨parts, hcut, -⟩ := Option.map_eq_some_iff.1 hx
  obtain ⟨t', ht⟩ := (t.insert_ok_iff front.length col s).2
    ⟨he, hs, .inr ⟨l, lines_at hl, (Text.cut?_ok_iff _ _).1 ⟨_, hcut⟩⟩⟩
  refine ⟨t', ht, ?_⟩
  rcases insert_inv ht with ⟨rfl, rfl⟩ | ⟨l', x', hl', hx', hspliced⟩
  · exact ⟨he, Line.insert?_empty hx ▸ hl⟩
  · obtain rfl := Option.some.inj ((lines_at hl).symm.trans hl')
    obtain rfl := Option.some.inj (hx.symm.trans hx')
    exact ⟨hspliced.editing_after, by simpa using hspliced.between [l] (by simpa using hl)⟩

theorem remove_at {l x : Line} {start stop : Nat} {removed : String}
    (hl : t.lineList = front ++ l :: back) (hx : l.delete? start stop = some (removed, x)) :
    ∃ t', t.remove front.length start stop = .ok (removed, t') ∧ t'.editing = true ∧
      t'.lineList = front ++ x :: back := by
  obtain ⟨parts, hrange, -⟩ := Option.map_eq_some_iff.1 hx
  obtain ⟨hle, hstart, hstop⟩ := (Text.cutRange?_ok_iff _ _ _).1 ⟨_, hrange⟩
  obtain ⟨⟨s, t'⟩, ht⟩ := (t.remove_ok_iff front.length start stop).2
    ⟨he, hle, .inr ⟨l, lines_at hl, hstart, hstop⟩⟩
  rcases remove_inv ht with ⟨rfl, rfl, rfl⟩ | ⟨l', x', hl', hx', hspliced⟩
  · obtain ⟨rfl, rfl⟩ := Line.delete?_nothing hx
    exact ⟨t', ht, he, hl⟩
  · obtain rfl := Option.some.inj ((lines_at hl).symm.trans hl')
    obtain ⟨rfl, rfl⟩ := Prod.mk.inj (Option.some.inj (hx.symm.trans hx'))
    exact ⟨t', ht, hspliced.editing_after,
      by simpa using hspliced.between [l] (by simpa using hl)⟩

theorem wrap_at {l a b : Line} {col : Nat} (hl : t.lineList = front ++ l :: back)
    (hcut : l.splitOff? col = some (a, b)) :
    ∃ t', t.wrap front.length col = .ok t' ∧ t'.editing = true ∧
      t'.lineList = front ++ a :: b :: back := by
  obtain ⟨parts, hparts, -⟩ := Option.map_eq_some_iff.1 hcut
  obtain ⟨t', ht⟩ := (t.wrap_ok_iff front.length col).2
    ⟨he, l, lines_at hl, (Text.cut?_ok_iff _ _).1 ⟨_, hparts⟩⟩
  obtain ⟨l', a', b', hl', hcut', hspliced⟩ := wrap_inv ht
  obtain rfl := Option.some.inj ((lines_at hl).symm.trans hl')
  obtain ⟨rfl, rfl⟩ := Prod.mk.inj (Option.some.inj (hcut.symm.trans hcut'))
  exact ⟨t', ht, hspliced.editing_after,
    by simpa using hspliced.between [l] (by simpa using hl)⟩

theorem unwrap_at {a b : Line} (hl : t.lineList = front ++ a :: b :: back) :
    ∃ t', t.unwrap (front.length + 1) = .ok t' ∧ t'.editing = true ∧
      t'.lineList = front ++ a.append b :: back := by
  have hnext : t.lines[front.length + 1]? = some b := by
    have hl : t.lineList = (front ++ [a]) ++ b :: back := by simpa using hl
    simpa using lines_at hl
  obtain ⟨hlt, -⟩ := Array.getElem?_eq_some_iff.1 hnext
  obtain ⟨t', ht⟩ := (t.unwrap_ok_iff (front.length + 1)).2 ⟨he, Nat.le_add_left _ _, hlt⟩
  obtain ⟨m, a', b', hm, ha', hb', hspliced⟩ := unwrap_inv ht
  obtain rfl : m = front.length := by omega
  obtain rfl := Option.some.inj ((lines_at hl).symm.trans ha')
  obtain rfl := Option.some.inj (hnext.symm.trans hb')
  exact ⟨t', ht, hspliced.editing_after,
    by simpa using hspliced.between [a, b] (by simpa using hl)⟩

end

end TextStore

/-! ## Stretches -/

/-- Some lines from `start` on, and how many there are afterwards in their place. -/
structure Stretch where
  start : Nat
  gone : Nat
  came : Nat
  deriving Repr, DecidableEq

/-- The lines that an operation splits or joins, of so many. -/
def BufferOp.stretch? (lineCount : Nat) : BufferOp → Option Stretch
  | .wrap n _ => some ⟨n, 1, 2⟩
  | .unwrap n => some ⟨n - 1, 2, 1⟩
  | .unwrapLines first last =>
    -- an only line has none to be joined to
    if lineCount = 1 then some ⟨0, 0, 0⟩
    else if last + 1 < lineCount then some ⟨first, last + 2 - first, 1⟩
    else some ⟨first - 1, lineCount - (first - 1), 1⟩
  | _ => none

namespace Buffer

/-- The lines of a stretch are replaced.  Each other line is as it was, text and annotations, at its
new place, and before the watermark exactly when it was before it. -/
structure Shifts (b : Buffer) (s : Shared) (b' : Buffer) (s' : Shared) (r : Stretch) : Prop where
  inside : r.start + r.gone ≤ b.lineCount
  count : b'.lineCount + r.gone = b.lineCount + r.came
  before : ∀ i, i < r.start → b'.lineList[i]? = b.lineList[i]? ∧
    (i < b'.highlightedUpTo s' ↔ i < b.highlightedUpTo s)
  after : ∀ i, r.start + r.gone ≤ i → b'.lineList[i - r.gone + r.came]? = b.lineList[i]? ∧
    (i - r.gone + r.came < b'.highlightedUpTo s' ↔ i < b.highlightedUpTo s)

namespace Shifts

variable {b b' b'' : Buffer} {s s' s'' : Shared}

/-- Nothing has changed. -/
theorem refl (b : Buffer) (s : Shared) (start n : Nat) (h : start + n ≤ b.lineCount) :
    b.Shifts s b s ⟨start, n, n⟩ := by
  refine ⟨h, rfl, fun i _ => ⟨rfl, Iff.rfl⟩, fun i hi => ?_⟩
  have hi : start + n ≤ i := hi
  rw [show i - n + n = i by omega]
  exact ⟨rfl, Iff.rfl⟩

/-- The second stretch covers what the first has put there. -/
theorem trans {start gone came start' gone' came' : Nat}
    (h : b.Shifts s b' s' ⟨start, gone, came⟩) (k : b'.Shifts s' b'' s'' ⟨start', gone', came'⟩)
    (hstart : start' ≤ start) (hstop : start + came ≤ start' + gone') :
    b.Shifts s b'' s'' ⟨start', gone' - came + gone, came'⟩ := by
  have hinside : start + gone ≤ b.lineCount := h.inside
  have hinside' : start' + gone' ≤ b'.lineCount := k.inside
  have hcount : b'.lineCount + gone = b.lineCount + came := h.count
  have hcount' : b''.lineCount + gone' = b'.lineCount + came' := k.count
  refine ⟨?_, ?_, fun i hi => ?_, fun i hi => ?_⟩
  · show start' + (gone' - came + gone) ≤ b.lineCount
    omega
  · show b''.lineCount + (gone' - came + gone) = b.lineCount + came'
    omega
  · obtain ⟨hline, hside⟩ := h.before i (Nat.lt_of_lt_of_le hi hstart)
    obtain ⟨hline', hside'⟩ := k.before i hi
    exact ⟨hline'.trans hline, hside'.trans hside⟩
  · have hi : start' + (gone' - came + gone) ≤ i := hi
    obtain ⟨hline, hside⟩ := h.after i (show start + gone ≤ i by omega)
    obtain ⟨hline', hside'⟩ := k.after (i - gone + came) (show start' + gone' ≤ _ by omega)
    have hplace : i - gone + came - gone' + came' = i - (gone' - came + gone) + came' := by omega
    dsimp only at hline hside hline' hside' ⊢
    rw [hplace] at hline' hside'
    exact ⟨hline'.trans hline, hside'.trans hside⟩

/-- A splice shifts when the watermark agrees with it. -/
theorem of_spliced {n old : Nat} {new : List Line}
    (h : TextStore.Spliced b.store b'.store n old new)
    (hbefore : ∀ i, i < n → (i < b'.highlightedUpTo s' ↔ i < b.highlightedUpTo s))
    (hafter : ∀ i, n + old ≤ i →
      (i - old + new.length < b'.highlightedUpTo s' ↔ i < b.highlightedUpTo s)) :
    b.Shifts s b' s' ⟨n, old, new.length⟩ := by
  refine ⟨h.inside, h.size, fun i hi => ⟨h.line_before i hi, hbefore i hi⟩,
    fun i hi => ⟨?_, hafter i hi⟩⟩
  have hi : n + old ≤ i := hi
  have hline := h.line_after (i - old + new.length) (by omega)
  rw [show i - old + new.length - new.length + old = i by omega] at hline
  exact hline

end Shifts

/-! ## Splitting and joining -/

section
variable {b : Buffer} {t : TextStore} (s : Shared)

/-- What is left when a line has been split: the watermark moves on if it lies past the two
lines. -/
theorem wrap_of_store {line col : Nat} (h : b.store.wrap line col = .ok t) :
    ∃ b' s', b.wrap s line col = ⟨.ok (), b', s'⟩ ∧ b'.store = t ∧
      b'.highlightedUpTo s' =
        if line + 1 < b.highlightedUpTo s then b.highlightedUpTo s + 1
        else b.highlightedUpTo s := by
  have hpending := b.pending_sync s
  unfold wrap
  rw [← b.store_sync s] at h
  dsimp only
  rw [h, b.frontier_sync s]
  exact ⟨_, _, rfl, rfl, highlightedUpTo_of_answered _ _ hpending⟩

/-- What is left when a line has been joined to the one before it: the watermark moves back if it
lies past the line. -/
theorem unwrap_of_store {line : Nat} (h : b.store.unwrap line = .ok t) :
    ∃ b' s', b.unwrap s line = ⟨.ok (), b', s'⟩ ∧ b'.store = t ∧
      b'.highlightedUpTo s' =
        if line < b.highlightedUpTo s then b.highlightedUpTo s - 1 else b.highlightedUpTo s := by
  have hpending := b.pending_sync s
  unfold unwrap
  rw [← b.store_sync s] at h
  dsimp only
  rw [h, b.frontier_sync s]
  exact ⟨_, _, rfl, rfl, highlightedUpTo_of_answered _ _ hpending⟩

theorem shifts_wrap {line col : Nat} (h : b.store.wrap line col = .ok t) :
    ∃ b' s', b.wrap s line col = ⟨.ok (), b', s'⟩ ∧ b.Shifts s b' s' ⟨line, 1, 2⟩ := by
  obtain ⟨b', s', hrun, rfl, hupTo⟩ := wrap_of_store s h
  obtain ⟨l, x, y, -, -, hspliced⟩ := TextStore.wrap_inv h
  refine ⟨b', s', hrun, .of_spliced hspliced (fun i hi => ?_) fun i hi => ?_⟩
  · rw [hupTo]
    split <;> omega
  · rw [hupTo, List.length_cons, List.length_singleton]
    split <;> omega

theorem shifts_unwrap {line : Nat} (h : b.store.unwrap line = .ok t) :
    ∃ b' s', b.unwrap s line = ⟨.ok (), b', s'⟩ ∧ b'.store = t ∧
      b.Shifts s b' s' ⟨line - 1, 2, 1⟩ := by
  obtain ⟨b', s', hrun, rfl, hupTo⟩ := unwrap_of_store s h
  obtain ⟨m, x, y, rfl, -, -, hspliced⟩ := TextStore.unwrap_inv h
  refine ⟨b', s', hrun, rfl, .of_spliced hspliced (fun i hi => ?_) fun i hi => ?_⟩
  · rw [hupTo]
    split <;> omega
  · rw [hupTo, List.length_singleton]
    split <;> omega

end

end Buffer

end Highlighting

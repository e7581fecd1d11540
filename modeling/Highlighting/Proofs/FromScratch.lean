import Highlighting.Proofs.Scanning

/-!
# Lines scanned in order

`scanLines` scans the lines of a text one after the other, each from the state in which the one
before it ended.  From the default state and with an empty table this is highlighting from scratch,
what the annotations that a buffer keeps are compared with.

A line is `Linked` when a scan from the end of the line before it, in the present table, finds what
the line carries and adds nothing.  Where all lines up to one are linked, they carry what
highlighting from scratch finds, up to the numbers of contexts:

    Linked lines 0, …, n  →  the lines up to n carry what scanLines finds       (scanLines_linked)
    in two tables scanLines finds the same up to numbers                        (scanLines_agree)
-/

namespace Highlighting

/-- The state in which lines with these annotations end, begun in a state. -/
def endAfter (s : LineState) : List Highlight → LineState
  | [] => s
  | h :: hs => endAfter h.endState hs

namespace Language

/-- What the lines of a text hold, scanned in order, and the table afterwards. -/
def scanLines (l : Language) (t : Contexts) (s : LineState) :
    List String → List Highlight × Contexts
  | [] => ([], t)
  | text :: texts =>
    let (h, t) := l.scan t s text
    let (hs, t) := scanLines l t h.endState texts
    (h :: hs, t)

/-- What the lines of a text hold when they are highlighted from scratch, and the table that this
makes. -/
def fromScratch (l : Language) (texts : List String) : List Highlight × Contexts :=
  l.scanLines .fresh .normal texts

/-- A language for examples, in which braces open and close regions of one type. -/
def braces : Language :=
  { named "Braces" with
    rules := [⟨"open", ⟨"\\\x7b", .one (.single '{')⟩, .punctuation, 0, 1⟩,
      ⟨"close", ⟨"\\\x7d", .one (.single '}')⟩, .punctuation, 0, -1⟩] }

example : (braces.fromScratch ["\x7b", "\x7d\x7b"]).1.map (·.markers) =
    [[⟨0, 1⟩], [⟨0, -1⟩, ⟨1, 1⟩]] := by
  decide +kernel

end Language

/-! ## Ends -/

@[simp] theorem endAfter_nil (s : LineState) : endAfter s [] = s := rfl

@[simp] theorem endAfter_cons (s : LineState) (h : Highlight) (hs : List Highlight) :
    endAfter s (h :: hs) = endAfter h.endState hs := rfl

@[simp] theorem endAfter_append (s : LineState) (hs gs : List Highlight) :
    endAfter s (hs ++ gs) = endAfter (endAfter s hs) gs := by
  induction hs generalizing s with
  | nil => rfl
  | cons h hs ih => exact ih h.endState

theorem endAfter_last (s : LineState) (hs : List Highlight) (n : Nat) (h : Highlight)
    (hn : hs[n]? = some h) (hlen : hs.length = n + 1) : endAfter s hs = h.endState := by
  rw [← List.take_of_length_le (Nat.le_of_eq hlen), List.take_add_one, hn, endAfter_append]
  rfl

namespace Language

variable (l : Language) (t u : Contexts) (s v : LineState)

/-! ## Many lines -/

@[simp] theorem scanLines_length (texts : List String) :
    (l.scanLines t s texts).1.length = texts.length := by
  induction texts generalizing t s with
  | nil => rfl
  | cons text texts ih => simp [scanLines, ih]

theorem scanLines_cons (text : String) (texts : List String) :
    l.scanLines t s (text :: texts) = ((l.scan t s text).1 ::
        (l.scanLines (l.scan t s text).2 (l.scan t s text).1.endState texts).1,
      (l.scanLines (l.scan t s text).2 (l.scan t s text).1.endState texts).2) := rfl

theorem scanLines_append (xs ys : List String) :
    l.scanLines t s (xs ++ ys) =
      ((l.scanLines t s xs).1 ++
          (l.scanLines (l.scanLines t s xs).2 (endAfter s (l.scanLines t s xs).1) ys).1,
        (l.scanLines (l.scanLines t s xs).2 (endAfter s (l.scanLines t s xs).1) ys).2) := by
  induction xs generalizing t s with
  | nil => rfl
  | cons x xs ih => simp [scanLines, ih]

theorem scanLines_grows (texts : List String) (ht : t.Sound) (hs : t.Issued s) :
    (l.scanLines t s texts).2.Sound ∧ t.Extends (l.scanLines t s texts).2 ∧
      (l.scanLines t s texts).2.Issued (endAfter s (l.scanLines t s texts).1) ∧
      (t.Live s → (l.scanLines t s texts).2.Live (endAfter s (l.scanLines t s texts).1)) := by
  induction texts generalizing t s with
  | nil => exact ⟨ht, .refl t, hs, id⟩
  | cons x xs ih =>
    obtain ⟨h₁, h₂, h₃, h₄⟩ := l.scan_grows t s x ht hs
    obtain ⟨k₁, k₂, k₃, k₄⟩ := ih _ _ h₁ h₃
    exact ⟨k₁, h₂.trans k₂, k₃, fun hl => k₄ (h₄ hl)⟩

theorem scanLines_markers (texts : List String) :
    ∀ h ∈ (l.scanLines t s texts).1, ∀ m ∈ h.markers, m.value ≠ 0 := by
  induction texts generalizing t s with
  | nil => exact fun h hh => by cases hh
  | cons x xs ih =>
    intro h hh
    rcases List.mem_cons.1 hh with rfl | hh
    · exact l.scan_markers t s x
    · exact ih _ _ h hh

/-- In a language without highlighting no line has a marker. -/
theorem scanLines_plain (texts : List String) (hp : l.plain = true) :
    ∀ h ∈ (l.scanLines t s texts).1, h.markers = [] := by
  induction texts generalizing t s with
  | nil => exact fun h hh => by cases hh
  | cons x xs ih =>
    intro h hh
    rcases List.mem_cons.1 hh with rfl | hh
    · show (l.scan t s x).1.markers = []
      rw [scan, if_pos hp]
      rfl
    · exact ih _ _ h hh

/-- The states between the lines have been issued. -/
theorem scanLines_issued (texts : List String) (ht : t.Sound) (hs : t.Issued s) :
    ∀ h ∈ (l.scanLines t s texts).1, (l.scanLines t s texts).2.Issued h.endState := by
  induction texts generalizing t s with
  | nil => simp [scanLines]
  | cons x xs ih =>
    obtain ⟨h₁, -, h₃, -⟩ := l.scan_grows t s x ht hs
    obtain ⟨-, k₂, -, -⟩ := l.scanLines_grows _ _ xs h₁ h₃
    intro h hh
    rcases List.mem_cons.1 hh with rfl | hh
    · exact h₃.mono k₂.nextId_le
    · exact ih _ _ h₁ h₃ h hh

/-- Each of the lines, scanned again in the table that all of them left or in any later one, holds
the same. -/
theorem scanLines_again (texts : List String) (ht : t.Sound) (hu : u.Sound) (hs : t.Issued s)
    (h : (l.scanLines t s texts).2.Extends u) (n : Nat) (text : String)
    (hn : texts[n]? = some text) :
    ∃ found, (l.scanLines t s texts).1[n]? = some found ∧
      l.scan u (endAfter s ((l.scanLines t s texts).1.take n)) text = (found, u) := by
  induction texts generalizing t s n with
  | nil => simp at hn
  | cons x xs ih =>
    obtain ⟨h₁, h₂, h₃, -⟩ := l.scan_grows t s x ht hs
    cases n with
    | zero =>
      obtain rfl : x = text := by simpa using hn
      have hx := (l.scanLines_grows _ _ xs h₁ h₃).2.1.trans h
      exact ⟨_, rfl, l.scan_again t u s x ht hu hs hx⟩
    | succ n => exact ih _ _ h₁ h₃ h n (by simpa using hn)

/-- In two tables, from states of one meaning, lines hold the same and end in states of one
meaning. -/
theorem scanLines_agree (texts : List String) (ht : t.Sound) (hu : u.Sound) (hs : t.Issued s)
    (hv : u.Issued v) (h : Agree t s u v) (hnone : s.context = none ↔ v.context = none) :
    (l.scanLines t s texts).1.map (·.runs) = (l.scanLines u v texts).1.map (·.runs) ∧
    (l.scanLines t s texts).1.map (·.markers) = (l.scanLines u v texts).1.map (·.markers) ∧
    Agree (l.scanLines t s texts).2 (endAfter s (l.scanLines t s texts).1)
      (l.scanLines u v texts).2 (endAfter v (l.scanLines u v texts).1) ∧
    ((endAfter s (l.scanLines t s texts).1).context = none ↔
      (endAfter v (l.scanLines u v texts).1).context = none) := by
  induction texts generalizing t u s v with
  | nil => exact ⟨rfl, rfl, h, hnone⟩
  | cons x xs ih =>
    obtain ⟨ht', -, hs', -⟩ := l.scan_grows t s x ht hs
    obtain ⟨hu', -, hv', -⟩ := l.scan_grows u v x hu hv
    obtain ⟨hr, hm, ha, hn⟩ := l.scan_agree t u s v x ht hu hs hv h
    obtain ⟨kr, km, ka, kn⟩ := ih _ _ _ _ ht' hu' hs' hv' ha (hn hnone)
    exact ⟨List.cons_eq_cons.2 ⟨hr, kr⟩, List.cons_eq_cons.2 ⟨hm, km⟩, ka, kn⟩

end Language

/-! ## Links -/

/-- The state in which the line before line `n` ended. -/
def stateBefore (lines : List Line) : Nat → LineState
  | 0 => .normal
  | n + 1 => (lines[n]?.map (·.endState)).getD .normal

/-- The state depends on the line before alone. -/
theorem stateBefore_congr (xs ys : List Line) (n : Nat) (h : ∀ j, n = j + 1 → ys[j]? = xs[j]?) :
    stateBefore ys n = stateBefore xs n := by
  cases n with
  | zero => rfl
  | succ n => simp only [stateBefore, h n rfl]

/-- Line `n` carries what a scan from the end of the line before it finds, and such a scan adds
nothing to the table. -/
def Linked (l : Language) (t : Contexts) (lines : List Line) (n : Nat) : Prop :=
  ∀ x, lines[n]? = some x → l.scan t (stateBefore lines n) x.text = (x.highlight, t)

/-- A link depends on the line and on the end of the line before it. -/
theorem Linked.congr {l : Language} {t : Contexts} {xs ys : List Line} {m n : Nat}
    (h : Linked l t xs m) (hline : ys[n]? = xs[m]?) (hstate : stateBefore ys n = stateBefore xs m) :
    Linked l t ys n := by
  intro x hx
  rw [hstate]
  exact h x (hline ▸ hx)

/-- Where there is no line, nothing is asked. -/
theorem linked_of_length_le (l : Language) (t : Contexts) (lines : List Line) (n : Nat)
    (h : lines.length ≤ n) : Linked l t lines n := by
  intro x hx
  rw [List.getElem?_eq_none h] at hx
  cases hx

/-- Links hold in later tables. -/
theorem Linked.extend {l : Language} {t u : Contexts} {xs : List Line} {n : Nat}
    (h : Linked l t xs n) (ht : t.Sound) (hu : u.Sound) (hs : t.Issued (stateBefore xs n))
    (hx : t.Extends u) : Linked l u xs n := by
  intro x hxn
  have hscan := h x hxn
  have := l.scan_again t u _ x.text ht hu hs (by rw [hscan]; exact hx)
  rw [this, hscan]

theorem stateBefore_eq_endAfter (lines : List Line) (n : Nat) (hn : n ≤ lines.length) :
    stateBefore lines n = endAfter .normal ((lines.take n).map (·.highlight)) := by
  cases n with
  | zero => rfl
  | succ n =>
    rw [List.take_add_one, List.getElem?_eq_getElem hn, List.map_append, endAfter_append]
    simp [stateBefore, List.getElem?_eq_getElem hn, Line.endState]

/-- Linked lines carry what a scan of them in order finds. -/
theorem scanLines_linked (l : Language) (t : Contexts) (lines : List Line) (n : Nat)
    (hn : n ≤ lines.length) (h : ∀ i, i < n → Linked l t lines i) :
    l.scanLines t .normal ((lines.take n).map (·.text)) =
      ((lines.take n).map (·.highlight), t) := by
  induction n with
  | zero => rfl
  | succ n ih =>
    have hlink := h n (Nat.lt_succ_self n) lines[n] (List.getElem?_eq_getElem hn)
    rw [stateBefore_eq_endAfter lines n (Nat.le_of_succ_le hn)] at hlink
    rw [List.take_add_one, List.getElem?_eq_getElem hn, List.map_append, List.map_append,
      Language.scanLines_append, ih (Nat.le_of_succ_le hn) fun i hi => h i (Nat.lt_succ_of_lt hi)]
    simp only [Option.toList_some, List.map_cons, List.map_nil, Language.scanLines, hlink]

end Highlighting

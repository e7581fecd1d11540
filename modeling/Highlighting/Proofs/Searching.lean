import Mathlib.Data.Nat.Find
import Highlighting.Proofs.Strides

/-!
# What a search finds

A search finds the match at the first place that has one.  So a search from further back finds no
later one:

    p.find d = some n, d at or after c  →  p.find c begins no later   (find_le)

Rules look for matches that hold a character.  They ask for the first match and drop it if it is
empty, so that what they find is the first filled match, or nothing when an empty one begins before
it (`finds_first`).
-/

namespace Highlighting

open Text (Cursor Ahead)

/-! ## Places -/

namespace Text.Ahead

variable {c d e : Cursor}

/-- A place ahead of another is that place or ahead of the next one. -/
theorem eq_or_next (h : Ahead c d) : d = c ∨ ∃ e, c.next? = some e ∧ Ahead e d := by
  induction h with
  | here => exact .inl rfl
  | @step d e hcd hn ih =>
    right
    rcases ih with rfl | ⟨x, hx, hxd⟩
    · exact ⟨e, hn, .here⟩
    · exact ⟨x, hx, .step hxd hn⟩

theorem eq_of_offset_le (h : Ahead c d) (hle : d.offset ≤ c.offset) : d = c := by
  rcases h.eq_or_next with heq | ⟨e, he, hed⟩
  · exact heq
  · have hce := Cursor.next?_offset he
    have hed := hed.offset_le
    omega

/-- Of two places ahead of a third, one is ahead of the other. -/
theorem total (hd : Ahead c d) (he : Ahead c e) : Ahead d e ∨ Ahead e d := by
  induction hd with
  | here => exact .inl he
  | @step d d' hcd hn ih =>
    rcases ih with hde | hed
    · rcases hde.eq_or_next with rfl | ⟨x, hx, hxe⟩
      · exact .inr (.step .here hn)
      · obtain rfl : x = d' := Option.some.inj (hx.symm.trans hn)
        exact .inl hxe
    · exact .inr (.step hed hn)

theorem of_offset_le (hd : Ahead c d) (he : Ahead c e) (hle : d.offset ≤ e.offset) :
    Ahead d e := by
  rcases hd.total he with h | h
  · exact h
  · rw [h.eq_of_offset_le hle]
    exact .here

/-- Places ahead of a third are known by their offsets. -/
theorem eq_of_offset_eq (hd : Ahead c d) (he : Ahead c e) (heq : d.offset = e.offset) : d = e :=
  ((hd.of_offset_le he (Nat.le_of_eq heq)).eq_of_offset_le (Nat.le_of_eq heq.symm)).symm

end Text.Ahead

/-! ## Searches -/

/-- A search looks at its place, then goes on from the next one. -/
theorem Expr.findFrom_next (e : Expr) {c d : Cursor} (h : c.next? = some d) :
    findFrom e c = (matchAt e c).or (findFrom e d) := by
  obtain ⟨x, xs, hrest, rfl⟩ := Cursor.next?_eq_some h
  obtain ⟨offset, before, rest⟩ := c
  subst hrest
  simp only [findFrom, findAlong, Cursor.past]
  cases matchAt e ⟨offset, before, x :: xs⟩ <;> rfl

namespace Pattern

variable {p : Pattern} {c d : Cursor} {m n : Match}

/-- A search from further back finds something that begins no later. -/
theorem find_le (hcd : Ahead c d) (hn : p.find d = some n) :
    ∃ m, p.find c = some m ∧ m.start.offset ≤ n.start.offset := by
  induction hcd generalizing n with
  | here => exact ⟨n, hn, Nat.le_refl _⟩
  | @step d e _ hnext ih =>
    have hd := Expr.findFrom_next p.expr hnext
    cases hat : p.expr.matchAt d with
    | none =>
      rw [hat, Option.none_or] at hd
      exact ih (hd.trans hn)
    | some m =>
      rw [hat, Option.some_or] at hd
      obtain ⟨m', hm', hle⟩ := ih hd
      have hstart := Expr.matchAt_start hat
      have hlt := Cursor.next?_offset hnext
      have hahead := (find_start hn).offset_le
      exact ⟨m', hm', by rw [hstart] at hle; omega⟩

/-! ## Filled matches -/

/-- The match holds a character, is found at or after the place, and no other such match that a
search from there on yields begins before it. -/
structure FirstFilled (p : Pattern) (c : Cursor) (m : Match) : Prop where
  ahead : Ahead c m.start
  found : p.find m.start = some m
  filled : m.filled = true
  first : ∀ d n, Ahead c d → p.find d = some n → n.filled = true →
    m.start.offset ≤ n.start.offset

/-- An empty match that a search from the place on yields begins before the match. -/
def EmptyBefore (p : Pattern) (c : Cursor) (m : Match) : Prop :=
  ∃ d n, Ahead c d ∧ p.find d = some n ∧ n.filled = false ∧ n.start.offset < m.start.offset

theorem FirstFilled.unique (hm : p.FirstFilled c m) (hn : p.FirstFilled c n) : m = n := by
  have hle := hm.first _ n hn.ahead hn.found hn.filled
  have hge := hn.first _ m hm.ahead hm.found hm.filled
  have hstart := hm.ahead.eq_of_offset_eq hn.ahead (Nat.le_antisymm hle hge)
  have hfound := hm.found
  rw [hstart, hn.found] at hfound
  exact (Option.some.inj hfound).symm

/-- If any search from a place on yields a filled match, there is a first one. -/
theorem exists_firstFilled (hcd : Ahead c d) (hn : p.find d = some n) (hfilled : n.filled = true) :
    ∃ m, p.FirstFilled c m := by
  have hsome : ∃ k d n, Ahead c d ∧ p.find d = some n ∧ n.filled = true ∧ n.start.offset = k :=
    ⟨_, d, n, hcd, hn, hfilled, rfl⟩
  classical
  obtain ⟨e, m, hce, hm, hmfilled, hk⟩ := Nat.find_spec hsome
  refine ⟨m, hce.trans (find_start hm), find_again hm, hmfilled, fun d n hcd hn hfilled => ?_⟩
  rw [hk]
  exact Nat.find_min' hsome ⟨d, n, hcd, hn, hfilled, rfl⟩

theorem firstFilled_of_findFilled (h : p.findFilled c = some m) : p.FirstFilled c m := by
  obtain ⟨hm, hfilled⟩ := find_of_findFilled h
  refine ⟨find_start hm, find_again hm, hfilled, fun d n hcd hn _ => ?_⟩
  obtain ⟨m', hm', hle⟩ := find_le hcd hn
  obtain rfl : m' = m := Option.some.inj (hm'.symm.trans hm)
  exact hle

theorem findFilled_of_find (hm : p.find c = some m) (hfilled : m.filled = true) :
    p.findFilled c = some m := by
  have hlt : m.start.offset < m.stop.offset := by simpa [Span.filled] using hfilled
  have hlength := (find_stop hm).length_lt hlt
  have hle := (find_start hm).length_le
  have hc : ¬c.atEnd = true := by
    cases hrest : c.rest with
    | nil => rw [hrest, List.length_nil] at hle; omega
    | cons x xs => simp [Cursor.atEnd, hrest]
  rw [findFilled, if_neg hc, hm]
  exact Option.filter_eq_some_iff.2 ⟨rfl, hfilled⟩

/-- The first filled match is found unless an empty one begins before it. -/
theorem findFilled_eq_some_iff (h : p.FirstFilled c m) :
    p.findFilled c = some m ↔ ¬p.EmptyBefore c m := by
  constructor
  · rintro hm ⟨d, n, hcd, hn, -, hlt⟩
    obtain ⟨m', hm', hle⟩ := find_le hcd hn
    obtain rfl : m' = m := Option.some.inj (hm'.symm.trans (find_of_findFilled hm).1)
    omega
  · intro hnone
    obtain ⟨m', hm', hle⟩ := find_le h.ahead h.found
    have hfirst : m.start.offset ≤ m'.start.offset := by
      refine Nat.le_of_not_lt fun hlt => ?_
      cases hfilled : m'.filled with
      | true => exact Nat.not_le_of_lt hlt (h.first c m' .here hm' hfilled)
      | false => exact hnone ⟨c, m', .here, hm', hfilled, hlt⟩
    have hstart := (find_start hm').eq_of_offset_eq h.ahead (Nat.le_antisymm hle hfirst)
    have hfound := find_again hm'
    rw [hstart, h.found] at hfound
    obtain rfl := Option.some.inj hfound
    exact findFilled_of_find hm' h.filled

/-- What ought to be found from a place on: the first filled match, or nothing when no search from
there on yields one. -/
def Wanted (p : Pattern) (c : Cursor) : Option Match → Prop
  | some m => p.FirstFilled c m
  | none => ∀ d n, Ahead c d → p.find d = some n → n.filled = false

/-- From the place on there is a filled match, but an empty one begins before the first. -/
def Shadowed (p : Pattern) (c : Cursor) : Prop :=
  ∃ m, p.FirstFilled c m ∧ p.EmptyBefore c m

theorem findFilled_of_shadowed (h : p.Shadowed c) : p.findFilled c = none := by
  obtain ⟨m, hm, hempty⟩ := h
  cases hfound : p.findFilled c with
  | none => rfl
  | some n =>
    obtain rfl := hm.unique (firstFilled_of_findFilled hfound)
    exact absurd hempty ((findFilled_eq_some_iff hm).1 hfound)

theorem wanted_findFilled_iff : p.Wanted c (p.findFilled c) ↔ ¬p.Shadowed c := by
  constructor
  · rintro hwanted hshadowed
    rw [findFilled_of_shadowed hshadowed] at hwanted
    obtain ⟨m, hm, -⟩ := hshadowed
    have hempty := hwanted _ m hm.ahead hm.found
    rw [hm.filled] at hempty
    cases hempty
  · intro hclear
    cases hfound : p.findFilled c with
    | some m => exact firstFilled_of_findFilled hfound
    | none =>
      intro d n hcd hn
      rw [← Bool.not_eq_true]
      intro hfilled
      obtain ⟨m, hm⟩ := exists_firstFilled hcd hn hfilled
      have hfirst := (findFilled_eq_some_iff hm).2 fun hempty => hclear ⟨m, hm, hempty⟩
      rw [hfound] at hfirst
      cases hfirst

end Pattern

/-- **What a rule finds.**  Whatever the rule or construct, the text and the place in it are: the
first filled match is found, and nothing when there is none, unless an empty match begins before the
first filled one.  Then nothing is found.  Where it is so with all rules and constructs of a
language, a scan leaves all that follows unmarked, though there are tokens of each of them. -/
theorem finds_first (r : TokenRule) (k : Construct) (c : Cursor) :
    (r.pattern.Wanted c (r.find c) ↔ ¬r.pattern.Shadowed c) ∧
    (r.pattern.Shadowed c → r.find c = none) ∧
    (k.start.Wanted c (k.findStart c) ↔ ¬k.start.Shadowed c) ∧
    (k.start.Shadowed c → k.findStart c = none) ∧
    ∀ (l : Language) (t : Contexts) (s : LineState), s.isInside = false →
      (∀ r ∈ l.rules, r.pattern.Shadowed c) → (∀ k ∈ l.constructs, k.start.Shadowed c) →
      l.scanFrom t s c = (⟨[], [], s⟩, t) := by
  refine ⟨Pattern.wanted_findFilled_iff, Pattern.findFilled_of_shadowed,
    Pattern.wanted_findFilled_iff, Pattern.findFilled_of_shadowed, fun l t s hs hr hk => ?_⟩
  by_cases hc : c.atEnd = true
  · exact l.scanFrom_atEnd t s c hc
  · refine l.scanFrom_blank t s c hc (by simp [hs]) (Language.nextToken_eq_none_iff.2 ⟨?_, ?_⟩)
    · exact fun k hmem => Pattern.findFilled_of_shadowed (hk k hmem)
    · exact fun r hmem => Pattern.findFilled_of_shadowed (hr r hmem)

/-- A rule for examples, whose pattern takes letters a, or nothing. -/
def letters : TokenRule :=
  ⟨"letters", ⟨"a*", .rep 0 none true (.one (.single 'a'))⟩, .keyword, 0, 0⟩

/-- In "baa" the letters from 1 to 3 are not found from the start, and remain unmarked. -/
theorem finds_first_letters :
    Pattern.compile "a*" = .ok letters.pattern ∧
    (∃ m, letters.pattern.FirstFilled (.ofString "baa") m ∧ m.start.offset = 1) ∧
    letters.find (.ofString "baa") = none ∧
    ¬letters.pattern.Wanted (.ofString "baa") (letters.find (.ofString "baa")) ∧
    { Language.named "Letters" with rules := [letters] }.scanFrom .fresh .normal
      (.ofString "baa") = (⟨[], [], .normal⟩, .fresh) := by
  have hplace : Cursor.ofString "baa" = ⟨0, none, ['b', 'a', 'a']⟩ := by decide
  rw [hplace]
  generalize hc : (⟨0, none, ['b', 'a', 'a']⟩ : Cursor) = c
  have hempty : letters.pattern.find c = some ⟨⟨c, c⟩, []⟩ := by rw [← hc]; rfl
  obtain ⟨d, hcd, hd, n, hn, hfilled, hstart⟩ : ∃ d, Ahead c d ∧ d.offset = 1 ∧
      ∃ n, letters.pattern.find d = some n ∧ n.filled = true ∧ n.start = d :=
    ⟨⟨1, some 'b', ['a', 'a']⟩, hc ▸ .step .here rfl, rfl, _, rfl, rfl, rfl⟩
  obtain ⟨m, hm⟩ := Pattern.exists_firstFilled hcd hn hfilled
  have hone : m.start.offset = 1 := by
    have hle := hm.first d n hcd hn hfilled
    rw [hstart, hd] at hle
    refine Nat.le_antisymm hle (Nat.pos_of_ne_zero fun hzero => ?_)
    have hsame := hm.ahead.eq_of_offset_le (by rw [hzero]; exact Nat.zero_le _)
    have hfound := hm.found
    rw [hsame, hempty] at hfound
    obtain rfl := Option.some.inj hfound
    have hmfilled := hm.filled
    simp [Span.filled] at hmfilled
  have hshadowed : letters.pattern.Shadowed c :=
    ⟨m, hm, c, ⟨⟨c, c⟩, []⟩, .here, hempty, by simp [Span.filled], by rw [hone, ← hc]; decide⟩
  obtain ⟨hwanted, hnone, -, -, hscan⟩ := finds_first letters Language.fence c
  refine ⟨rfl, ⟨m, hm, hone⟩, hnone hshadowed, fun h => hwanted.1 h hshadowed, ?_⟩
  exact hscan _ .fresh .normal rfl (by simpa using hshadowed) (by simp [Language.named])

end Highlighting

import Highlighting.Proofs.Searching

/-!
# Patterns that stand for one text

A pattern is literal for a text when all it matches is that text, and it matches wherever the text
stands.  What it finds is then the first place where the text stands:

    p.IsLiteral d, p.find c = some m  →  m is d, n characters after c, where n is the least number
                                         with d <+: c.rest.drop n               (IsLiteral.first)
    p.IsLiteral d, p.find c = none    →  d stands nowhere after c                (IsLiteral.none)

An expression of single characters is literal; `Expr.literal?` reads its text off
(isLiteral_of_literal?).  Places are counted in characters here: `c.skip n` is `n` of them after `c`.
-/

namespace Highlighting

open Text (Cursor Ahead byteLength)

/-! ## Places by the number of characters -/

namespace Text.Cursor

/-- The place so many characters further on, or the end of the text. -/
def skip (c : Cursor) : Nat → Cursor
  | 0 => c
  | n + 1 => match c.next? with
    | none => c
    | some d => d.skip n

variable (c : Cursor) (n k : Nat)

theorem skip_add : (c.skip n).skip k = c.skip (n + k) := by
  induction n generalizing c with
  | zero => rw [skip, Nat.zero_add]
  | succ n ih =>
    rw [Nat.add_right_comm, skip, skip]
    cases hn : c.next? with
    | none => cases k <;> simp [skip, hn]
    | some d => exact ih d

@[simp] theorem skip_rest : (c.skip n).rest = c.rest.drop n := by
  induction n generalizing c with
  | zero => rfl
  | succ n ih =>
    rw [skip]
    cases hn : c.next? with
    | none =>
      cases hr : c.rest with
      | nil => simp
      | cons x xs => simp [next?, hr] at hn
    | some d =>
      obtain ⟨x, xs, hr, rfl⟩ := next?_eq_some hn
      rw [hr, List.drop_succ_cons]
      exact ih _

theorem skip_offset : (c.skip n).offset = c.offset + byteLength (c.rest.take n) := by
  induction n generalizing c with
  | zero => simp [skip, byteLength]
  | succ n ih =>
    rw [skip]
    cases hn : c.next? with
    | none =>
      cases hr : c.rest with
      | nil => simp [byteLength]
      | cons x xs => simp [next?, hr] at hn
    | some d =>
      obtain ⟨x, xs, hr, rfl⟩ := next?_eq_some hn
      rw [hr, List.take_succ_cons, byteLength, ← Nat.add_assoc]
      exact ih _

theorem ahead_skip : Ahead c (c.skip n) := by
  induction n generalizing c with
  | zero => exact .here
  | succ n ih =>
    rw [skip]
    cases hn : c.next? with
    | none => exact .here
    | some d => exact (Ahead.step .here hn).trans (ih d)

variable {n k}

theorem upTo_skip (hn : n ≤ c.rest.length) : c.upTo (c.skip n) = c.rest.take n := by
  rw [upTo, skip_rest, List.length_drop, Nat.sub_sub_self hn]

/-- Within the text, offsets order places as their numbers of characters do. -/
theorem le_of_skip_offset_le (hn : n ≤ c.rest.length)
    (h : (c.skip n).offset ≤ (c.skip k).offset) : n ≤ k := by
  refine Nat.le_of_not_lt fun hlt => ?_
  have hahead := ahead_skip (c.skip k) (n - k)
  rw [skip_add, Nat.add_sub_cancel' (Nat.le_of_lt hlt)] at hahead
  have hlength := congrArg (·.rest.length) (hahead.eq_of_offset_le h)
  simp only [skip_rest, List.length_drop] at hlength
  omega

end Text.Cursor

theorem Text.Ahead.exists_skip {c d : Cursor} (h : Ahead c d) :
    ∃ n ≤ c.rest.length, d = c.skip n := by
  induction h with
  | here => exact ⟨0, Nat.zero_le _, rfl⟩
  | @step d e _ hn ih =>
    obtain ⟨n, hle, rfl⟩ := ih
    have hlength := Cursor.next?_length hn
    rw [Cursor.skip_rest, List.length_drop] at hlength
    refine ⟨n + 1, by omega, ?_⟩
    rw [← Cursor.skip_add, Cursor.skip, hn]
    rfl

/-! ## Literal patterns -/

/-- All that the pattern matches is the text, and it matches wherever the text stands. -/
structure Pattern.IsLiteral (p : Pattern) (text : List Char) : Prop where
  chars : ∀ c m, p.find c = some m → m.chars = text
  found : ∀ c, text <+: c.rest → ∃ m, p.find c = some m ∧ m.start = c

namespace Pattern.IsLiteral

variable {p : Pattern} {d : List Char} {c : Cursor} {m : Match}

/-- What is found is the first place where the text stands. -/
theorem first (hp : p.IsLiteral d) (hm : p.find c = some m) :
    ∃ n, n + d.length ≤ c.rest.length ∧ m.start = c.skip n ∧ m.stop = c.skip (n + d.length) ∧
      d <+: c.rest.drop n ∧ ∀ j, d <+: c.rest.drop j → n ≤ j := by
  obtain ⟨n, hn, hstart⟩ := (find_start hm).exists_skip
  obtain ⟨k, hk, hstop⟩ := (find_stop hm).exists_skip
  have hd := hp.chars c m hm
  rw [Span.chars, hstop, Cursor.upTo_skip _ hk, hstart, Cursor.skip_rest] at hd
  rw [hstart, Cursor.skip_rest, List.length_drop] at hk
  have hlength : d.length = k := by
    rw [← hd, List.length_take, List.length_drop, Nat.min_eq_left hk]
  refine ⟨n, by omega, hstart, ?_, hd ▸ List.take_prefix _ _, fun j hj => ?_⟩
  · rw [hstop, hstart, Cursor.skip_add, hlength]
  · obtain ⟨m', hm', hat⟩ := hp.found (c.skip j) (by rw [Cursor.skip_rest]; exact hj)
    obtain ⟨m'', hm'', hle⟩ := find_le (c.ahead_skip j) hm'
    obtain rfl : m'' = m := Option.some.inj (hm''.symm.trans hm)
    rw [hat, hstart] at hle
    exact c.le_of_skip_offset_le hn hle

/-- Where nothing is found, the text stands nowhere. -/
theorem none (hp : p.IsLiteral d) (hnone : p.find c = none) (j : Nat) : ¬d <+: c.rest.drop j := by
  intro hj
  obtain ⟨m, hm, -⟩ := hp.found (c.skip j) (by rw [Cursor.skip_rest]; exact hj)
  obtain ⟨m', hm', -⟩ := find_le (c.ahead_skip j) hm
  rw [hnone] at hm'
  cases hm'

theorem filled (hp : p.IsLiteral d) (hd : d ≠ []) (hm : p.find c = some m) : m.filled = true := by
  obtain ⟨n, hn, hstart, hstop, -⟩ := hp.first hm
  have hpos := List.length_pos_iff.2 hd
  rw [Span.filled, hstart, hstop, decide_eq_true_eq]
  refine Nat.lt_of_not_le fun hle => ?_
  have := c.le_of_skip_offset_le hn hle
  omega

variable {i : Nat}

/-- So it is with a search that begins some characters further on. -/
theorem first_skip (hp : p.IsLiteral d) (hi : i ≤ c.rest.length)
    (hm : p.find (c.skip i) = some m) :
    ∃ n, i ≤ n ∧ n + d.length ≤ c.rest.length ∧ m.start = c.skip n ∧
      m.stop = c.skip (n + d.length) ∧ d <+: c.rest.drop n ∧
      ∀ j, i ≤ j → d <+: c.rest.drop j → n ≤ j := by
  obtain ⟨n, hn, hstart, hstop, hpre, hfirst⟩ := hp.first hm
  rw [Cursor.skip_rest, List.length_drop] at hn
  rw [Cursor.skip_add] at hstart hstop
  rw [Cursor.skip_rest, List.drop_drop] at hpre
  refine ⟨i + n, by omega, by omega, hstart, ?_, hpre, fun j hij hj => ?_⟩
  · rw [hstop, Nat.add_assoc]
  · have hle := hfirst (j - i)
    rw [Cursor.skip_rest, List.drop_drop, Nat.add_sub_cancel' hij] at hle
    have := hle hj
    omega

theorem none_skip (hp : p.IsLiteral d) (hnone : p.find (c.skip i) = .none) {j : Nat}
    (hij : i ≤ j) : ¬d <+: c.rest.drop j := by
  have hnot := hp.none hnone (j - i)
  rwa [Cursor.skip_rest, List.drop_drop, Nat.add_sub_cancel' hij] at hnot

end Pattern.IsLiteral

/-- The character of a set that is written as one. -/
def CharSet.only? : CharSet → Option Char
  | span first last => if first = last then some first else none
  | _ => none

theorem CharSet.eq_single_of_only? {set : CharSet} {x : Char} (h : set.only? = some x) :
    set = single x := by
  unfold only? at h
  split at h
  · split at h
    · next heq => cases h; rw [heq]; rfl
    · cases h
  · cases h

namespace Expr

/-- The text of an expression that is made of single characters. -/
def literal? : Expr → Option (List Char)
  | empty => some []
  | one set => set.only?.map fun x => [x]
  | look _ => none
  | group _ body => literal? body
  | seq first second => (literal? first).bind fun a => (literal? second).map fun b => a ++ b
  | alt _ _ => none
  | rep _ _ _ _ => none

/-- Such an expression reaches the end of its text, where the text stands, and nothing else. -/
theorem ends_literal (e : Expr) (d : List Char) (h : e.literal? = some d) (r : Reach) :
    (ends e r).map (·.here) = if d <+: r.here.rest then [r.here.skip d.length] else [] := by
  induction e generalizing d r with
  | empty =>
    obtain rfl := Option.some.inj h
    simp [ends, Cursor.skip]
  | one set =>
    obtain ⟨x, hx, rfl⟩ := Option.map_eq_some_iff.1 h
    rw [CharSet.eq_single_of_only? hx]
    simp only [ends, CharSet.mem_single]
    cases hrest : r.here.rest with
    | nil => simp
    | cons c cs =>
      by_cases hc : c = x
      · simp [hc, Cursor.skip, Cursor.next?, hrest]
      · simp [hc, Ne.symm hc]
  | look _ => cases h
  | group index body ih =>
    rw [← ih d h r, ends, List.map_map]
    rfl
  | seq first second ih₁ ih₂ =>
    obtain ⟨a, ha, h⟩ := Option.bind_eq_some_iff.1 h
    obtain ⟨b, hb, rfl⟩ := Option.map_eq_some_iff.1 h
    have hfirst := ih₁ a ha r
    simp only [ends]
    split at hfirst
    · next hpre =>
      obtain ⟨s, hs, hhere⟩ := List.map_eq_singleton_iff.1 hfirst
      have hsecond := ih₂ b hb s
      obtain ⟨t, ht⟩ := hpre
      rw [hhere, Cursor.skip_rest, Cursor.skip_add, ← ht, List.drop_left] at hsecond
      have hiff : a ++ b <+: r.here.rest ↔ b <+: t := ht ▸ List.prefix_append_right_inj a
      simp only [hs, List.flatMap_singleton, hiff, List.length_append, ← hsecond]
      split at hsecond
      · obtain ⟨u, hu, -⟩ := List.map_eq_singleton_iff.1 hsecond
        simp [hu]
      · simp [List.map_eq_nil_iff.1 hsecond]
    · next hpre =>
      rw [List.map_eq_nil_iff.1 hfirst, if_neg fun h => hpre ((List.prefix_append a b).trans h)]
      rfl
  | alt _ _ => cases h
  | rep _ _ _ _ => cases h

theorem matchAt_literal (e : Expr) (d : List Char) (h : e.literal? = some d) (c : Cursor) :
    (matchAt e c).map (·.stop) = if d <+: c.rest then some (c.skip d.length) else none := by
  have hends := congrArg List.head? (ends_literal e d h ⟨c, []⟩)
  rw [matchAt, Option.map_map]
  rw [List.head?_map] at hends
  refine Eq.trans ?_ (hends.trans ?_)
  · rfl
  · split <;> rfl

/-- Whatever it was read from. -/
theorem isLiteral_of_literal? (e : Expr) (d : List Char) (h : e.literal? = some d)
    (source : String) : (Pattern.mk source e).IsLiteral d where
  chars c m hm := by
    have hstop := matchAt_literal e d h m.start
    rw [matchAt_of_findAlong hm, Option.map_some] at hstop
    split at hstop
    · next hpre =>
      rw [Span.chars, Option.some.inj hstop, Cursor.upTo_skip _ hpre.length_le]
      exact (List.prefix_iff_eq_take.1 hpre).symm
    · cases hstop
  found c hc := by
    have hstop := matchAt_literal e d h c
    rw [if_pos hc] at hstop
    obtain ⟨m, hm, -⟩ := Option.map_eq_some_iff.1 hstop
    exact ⟨m, findFrom_of_matchAt hm, matchAt_start hm⟩

end Expr

end Highlighting

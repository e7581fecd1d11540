import Highlighting.Pattern.Expr

/-!
# Where a pattern matches

`ends e r` lists the places that `e` can reach from `r`, the preferred one first and each place
once.  A match is the first place of that list, at the first start that has one:

    s ∈ ends e r  →  s lies at or after r                            (ends_ahead)
    findFrom e c = some m  →  c, m.start, m.stop lie in this order   (findFrom_start, findFrom_stop)
                              and findFrom e m.start = some m         (findFrom_again)

A place is kept once because what follows depends on the place alone, so that a second way to it
is never preferred; this also keeps a search polynomial.
-/

namespace Highlighting

open Text (Cursor Ahead)

/-- A piece of a text. -/
structure Span where
  start : Cursor
  stop : Cursor
  deriving Repr, DecidableEq

/-- The characters of the piece. -/
def Span.chars (s : Span) : List Char :=
  s.start.upTo s.stop

/-- Does the piece hold a character? -/
def Span.filled (s : Span) : Bool :=
  s.start.offset < s.stop.offset

/-- A place that an expression reached, with the groups captured on the way, the latest first. -/
structure Reach where
  here : Cursor
  groups : List (Nat × Span)

/-- Where a pattern matched. -/
structure Match extends Span where
  groups : List (Nat × Span)

/-- What the group captured last. -/
def Match.group? (m : Match) (index : Nat) : Option Span :=
  m.groups.lookup index

namespace Expr

/-! ## Algorithm -/

/-- Each place once, where it stands first, by comparing it with all that stand before it. -/
def firsts : List Reach → List Reach
  | [] => []
  | r :: rs => r :: (firsts rs).filter fun s => s.here.offset != r.here.offset

/-- Does each place lie before the one that stands before it? -/
def falls : List Reach → Bool
  | r :: s :: rs => s.here.offset < r.here.offset && falls (s :: rs)
  | _ => true

/-- Each place once, where it stands first.  The places of a greedy repetition fall and are left as
they are: a long text has as many of them as characters. -/
def distinct (rs : List Reach) : List Reach :=
  if falls rs then rs else firsts rs

/-- Is the place of `r` among those found? -/
def isFound (found : List Reach) (r : Reach) : Bool :=
  found.any fun s => s.here.offset == r.here.offset

/-- `found`, latest first, and `r` unless its place is there already. -/
def record (found : List Reach) (r : Reach) : List Reach :=
  if isFound found r then found else r :: found

/-- The places that `step`, taken exactly so many times, reaches. -/
def exactly (step : Reach → List Reach) : Nat → Reach → List Reach
  | 0, r => [r]
  | n + 1, r => distinct ((exactly step n r).flatMap step)

/-- Adds to `found`, latest first, the places that no more than so many further rounds of `step`
reach from `r`, and `r` itself, each with the number of rounds left.  What follows depends on both,
so that a place need not be left twice with the same number. -/
def exploreUpTo (step : Reach → List Reach) (greedy : Bool) :
    (rounds : Nat) → (found : List (Nat × Reach)) → Reach → List (Nat × Reach)
  | 0, found, r => (0, r) :: found
  | rounds + 1, found, r =>
    if found.any fun s => s.1 == rounds + 1 && s.2.here.offset == r.here.offset then found
    else if greedy then
      (rounds + 1, r) :: (step r).foldl (exploreUpTo step greedy rounds) found
    else (step r).foldl (exploreUpTo step greedy rounds) ((rounds + 1, r) :: found)

/-- Adds to `found` the places that further rounds of `step` reach from `r`, and `r` itself.  A
round that takes no character leads nowhere new and is left out.  Every round takes a character, so
`rounds` need not exceed the number of those left. -/
def explore (step : Reach → List Reach) (greedy : Bool) :
    (rounds : Nat) → (found : List Reach) → Reach → List Reach
  | 0, found, r => record found r
  | rounds + 1, found, r =>
    if isFound found r then found
    else
      let further := (step r).filter fun s => r.here.offset < s.here.offset
      if greedy then r :: further.foldl (explore step greedy rounds) found
      else further.foldl (explore step greedy rounds) (r :: found)

/-- Adds to `found` the places that one or more rounds of `step` reach from `r`.  The first round
may take no character; no round follows it then. -/
def exploreSome (step : Reach → List Reach) (greedy : Bool) (found : List Reach) (r : Reach) :
    List Reach :=
  (step r).foldl (fun found s =>
    if r.here.offset < s.here.offset then explore step greedy s.here.rest.length found s
    else record found s) found

/-- The places that `least` rounds of `step` or more, and no more than `most`, reach from `r`. -/
def repeated (step : Reach → List Reach) (least : Nat) (most : Option Nat) (greedy : Bool)
    (r : Reach) : List Reach :=
  match most, least with
  | some most, least =>
    distinct (((exactly step least r).foldl (exploreUpTo step greedy (most - least)) []).map
      (·.2)).reverse
  | none, 0 =>
    if greedy then (record (exploreSome step greedy [] r) r).reverse
    else (exploreSome step greedy [r] r).reverse
  | none, least + 1 =>
    ((exactly step least r).foldl (exploreSome step greedy) []).reverse

/-- The places that `e` reaches from a place, the preferred one first. -/
def ends : Expr → Reach → List Reach
  | empty => fun r => [r]
  | one set => fun r =>
    match r.here.rest with
    | [] => []
    | c :: cs => if set.mem c then [{ r with here := r.here.past c cs }] else []
  | look condition => fun r => if condition.holds r.here then [r] else []
  | group index body => fun r =>
    (ends body r).map fun s => { s with groups := (index, ⟨r.here, s.here⟩) :: s.groups }
  | seq first second => fun r => distinct ((ends first r).flatMap (ends second))
  | alt first second => fun r => distinct (ends first r ++ ends second r)
  | rep least most greedy body => repeated (ends body) least most greedy

/-- The preferred match that begins at the place. -/
def matchAt (e : Expr) (c : Cursor) : Option Match :=
  (ends e ⟨c, []⟩).head?.map fun s => ⟨⟨c, s.here⟩, s.groups⟩

/-- The preferred match at the first place that has one, `rest` being the text after it. -/
def findAlong (e : Expr) (offset : Nat) (before : Option Char) : (rest : List Char) → Option Match
  | [] => matchAt e ⟨offset, before, []⟩
  | c :: cs =>
    match matchAt e ⟨offset, before, c :: cs⟩ with
    | some m => some m
    | none => findAlong e (offset + c.utf8Size) (some c) cs

/-- The leftmost match at or after a place. -/
def findFrom (e : Expr) (c : Cursor) : Option Match :=
  findAlong e c.offset c.before c.rest

/-! ## Lemmas -/

/-- Every place that `step` reaches lies at or after the one it is taken from. -/
def Forward (step : Reach → List Reach) : Prop :=
  ∀ r, ∀ s ∈ step r, Ahead r.here s.here

theorem mem_of_mem_firsts {s : Reach} {rs : List Reach} (h : s ∈ firsts rs) : s ∈ rs := by
  induction rs with
  | nil => exact h
  | cons r rs ih =>
    simp only [firsts, List.mem_cons, List.mem_filter] at h ⊢
    exact h.imp id fun h => ih h.1

theorem lt_of_falls {r : Reach} {rs : List Reach} (h : falls (r :: rs) = true) :
    ∀ s ∈ rs, s.here.offset < r.here.offset := by
  induction rs generalizing r with
  | nil => simp
  | cons t rs ih =>
    simp only [falls, Bool.and_eq_true, decide_eq_true_eq] at h
    intro s hs
    rcases List.mem_cons.1 hs with rfl | hs
    · exact h.1
    · exact Nat.lt_trans (ih h.2 s hs) h.1

theorem firsts_of_falls {rs : List Reach} (h : falls rs = true) : firsts rs = rs := by
  induction rs with
  | nil => rfl
  | cons r rs ih =>
    have hlt := lt_of_falls h
    have hrest : falls rs = true := by
      cases rs with
      | nil => rfl
      | cons s rs => exact (Bool.and_eq_true_iff.1 h).2
    rw [firsts, ih hrest, List.filter_eq_self.2 fun s hs => by simpa using Nat.ne_of_lt (hlt s hs)]

/-- Nothing is lost by leaving falling places as they are. -/
theorem distinct_eq_firsts (rs : List Reach) : distinct rs = firsts rs := by
  unfold distinct
  split
  · next h => exact (firsts_of_falls h).symm
  · rfl

@[simp] theorem distinct_nil : distinct [] = [] :=
  rfl

@[simp] theorem distinct_singleton (r : Reach) : distinct [r] = [r] :=
  rfl

theorem mem_of_mem_distinct {s : Reach} {rs : List Reach} (h : s ∈ distinct rs) : s ∈ rs :=
  mem_of_mem_firsts (distinct_eq_firsts rs ▸ h)

theorem mem_record {s r : Reach} {found : List Reach} (h : s ∈ record found r) :
    s ∈ found ∨ s = r := by
  unfold record at h
  split at h
  · exact .inl h
  · exact (List.mem_cons.1 h).symm

/-- What a fold that only adds places after `c` ends with was there before, or lies after `c`. -/
theorem foldl_ahead {c : Cursor} {α : Type} (view : α → List Reach) {add : α → Reach → α}
    {rs : List Reach}
    (hadd : ∀ found, ∀ r ∈ rs, ∀ s ∈ view (add found r), s ∈ view found ∨ Ahead c s.here) :
    ∀ found, ∀ s ∈ view (rs.foldl add found), s ∈ view found ∨ Ahead c s.here := by
  induction rs with
  | nil => intro found s hs; exact .inl hs
  | cons r rs ih =>
    intro found s hs
    rcases ih (fun f q hq => hadd f q (.tail _ hq)) _ s hs with h | h
    · exact hadd found r (.head _) s h
    · exact .inr h

theorem exactly_forward {step : Reach → List Reach} (hf : Forward step) (n : Nat) :
    Forward (exactly step n) := by
  induction n with
  | zero => intro r s hs; rw [List.mem_singleton.1 hs]; exact .here
  | succ n ih =>
    intro r s hs
    obtain ⟨t, ht, hst⟩ := List.mem_flatMap.1 (mem_of_mem_distinct hs)
    exact (ih r t ht).trans (hf t s hst)

theorem exploreUpTo_ahead {step : Reach → List Reach} (hf : Forward step) (greedy : Bool) :
    ∀ (rounds : Nat) (found : List (Nat × Reach)) (r : Reach),
      ∀ s ∈ (exploreUpTo step greedy rounds found r).map (·.2),
        s ∈ found.map (·.2) ∨ Ahead r.here s.here := by
  intro rounds
  induction rounds with
  | zero =>
    intro found r s hs
    exact (List.mem_cons.1 hs).symm.imp id fun h : s = r => h ▸ .here
  | succ rounds ih =>
    intro found r s hs
    have hall : ∀ found, ∀ s ∈ ((step r).foldl (exploreUpTo step greedy rounds) found).map (·.2),
        s ∈ found.map (·.2) ∨ Ahead r.here s.here :=
      foldl_ahead (List.map Prod.snd) fun found q hq s hs =>
        (ih found q s hs).imp id (hf r q hq).trans
    unfold exploreUpTo at hs
    split at hs
    · exact .inl hs
    · split at hs
      · rcases List.mem_cons.1 hs with rfl | hs
        · exact .inr .here
        · exact hall found s hs
      · rcases hall _ s hs with h | h
        · exact (List.mem_cons.1 h).symm.imp id fun h : s = r => h ▸ .here
        · exact .inr h

theorem explore_ahead {step : Reach → List Reach} (hf : Forward step) (greedy : Bool) :
    ∀ (rounds : Nat) (found : List Reach) (r : Reach),
      ∀ s ∈ explore step greedy rounds found r, s ∈ found ∨ Ahead r.here s.here := by
  intro rounds
  induction rounds with
  | zero =>
    intro found r s hs
    exact (mem_record hs).imp id fun h : s = r => h ▸ .here
  | succ rounds ih =>
    intro found r s hs
    have hall : ∀ found, ∀ s ∈ ((step r).filter fun s => r.here.offset < s.here.offset).foldl
          (explore step greedy rounds) found, s ∈ found ∨ Ahead r.here s.here :=
      foldl_ahead id fun found q hq s hs =>
        (ih found q s hs).imp id (hf r q (List.mem_filter.1 hq).1).trans
    unfold explore at hs
    split at hs
    · exact .inl hs
    · dsimp only at hs
      split at hs
      · rcases List.mem_cons.1 hs with rfl | hs
        · exact .inr .here
        · exact hall found s hs
      · rcases hall _ s hs with h | h
        · exact (List.mem_cons.1 h).symm.imp id fun h : s = r => h ▸ .here
        · exact .inr h

theorem exploreSome_ahead {step : Reach → List Reach} (hf : Forward step) (greedy : Bool)
    (found : List Reach) (r s : Reach) (hs : s ∈ exploreSome step greedy found r) :
    s ∈ found ∨ Ahead r.here s.here := by
  refine foldl_ahead id (fun found q hq s hs => ?_) found s hs
  dsimp only [id] at hs
  split at hs
  · exact (explore_ahead hf greedy _ found q s hs).imp id (hf r q hq).trans
  · exact (mem_record hs).imp id fun h : s = q => h ▸ hf r q hq

theorem repeated_forward {step : Reach → List Reach} (hf : Forward step) (least : Nat)
    (most : Option Nat) (greedy : Bool) : Forward (repeated step least most greedy) := by
  intro r s hs
  unfold repeated at hs
  split at hs
  · refine (foldl_ahead (List.map Prod.snd) (fun found q hq s hs => ?_) [] s
      (List.mem_reverse.1 (mem_of_mem_distinct hs))).resolve_left List.not_mem_nil
    exact (exploreUpTo_ahead hf _ _ found q s hs).imp id (exactly_forward hf _ r q hq).trans
  · split at hs
    · rcases mem_record (List.mem_reverse.1 hs) with h | rfl
      · exact (exploreSome_ahead hf _ _ _ _ h).resolve_left List.not_mem_nil
      · exact .here
    · rcases exploreSome_ahead hf _ _ _ _ (List.mem_reverse.1 hs) with h | h
      · rw [List.mem_singleton.1 h]; exact .here
      · exact h
  · refine (foldl_ahead id (fun found q hq s hs => ?_) [] s
      (List.mem_reverse.1 hs)).resolve_left List.not_mem_nil
    exact (exploreSome_ahead hf _ _ _ _ hs).imp id (exactly_forward hf _ r q hq).trans

/-- An expression never reaches back. -/
theorem ends_ahead (e : Expr) : Forward (ends e) := by
  induction e with
  | empty => intro r s hs; rw [List.mem_singleton.1 hs]; exact .here
  | one set =>
    intro r s hs
    simp only [ends] at hs
    split at hs
    · cases hs
    · next c cs hr =>
      split at hs
      · rw [List.mem_singleton.1 hs]; exact .past hr
      · cases hs
  | look condition =>
    intro r s hs
    simp only [ends] at hs
    split at hs
    · rw [List.mem_singleton.1 hs]; exact .here
    · cases hs
  | group index body ih =>
    intro r s hs
    obtain ⟨t, ht, rfl⟩ := List.mem_map.1 hs
    exact ih r t ht
  | seq first second ih₁ ih₂ =>
    intro r s hs
    obtain ⟨t, ht, hst⟩ := List.mem_flatMap.1 (mem_of_mem_distinct hs)
    exact (ih₁ r t ht).trans (ih₂ t s hst)
  | alt first second ih₁ ih₂ =>
    intro r s hs
    rcases List.mem_append.1 (mem_of_mem_distinct hs) with h | h
    · exact ih₁ r s h
    · exact ih₂ r s h
  | rep least most greedy body ih => exact repeated_forward ih least most greedy

theorem matchAt_start {e : Expr} {c : Cursor} {m : Match} (h : matchAt e c = some m) :
    m.start = c := by
  obtain ⟨s, _, rfl⟩ := Option.map_eq_some_iff.1 h
  rfl

theorem matchAt_stop {e : Expr} {c : Cursor} {m : Match} (h : matchAt e c = some m) :
    Ahead m.start m.stop := by
  obtain ⟨s, hs, rfl⟩ := Option.map_eq_some_iff.1 h
  exact ends_ahead e _ s (List.mem_of_mem_head? hs)

theorem matchAt_of_findAlong {e : Expr} {m : Match} {rest : List Char} {offset : Nat}
    {before : Option Char} (h : findAlong e offset before rest = some m) :
    matchAt e m.start = some m := by
  induction rest generalizing offset before with
  | nil => rw [matchAt_start h]; exact h
  | cons c cs ih =>
    unfold findAlong at h
    split at h
    · next hm => cases h; rw [matchAt_start hm]; exact hm
    · exact ih h

/-- A match at the place is the one that is found. -/
theorem findFrom_of_matchAt {e : Expr} {c : Cursor} {m : Match} (h : matchAt e c = some m) :
    findFrom e c = some m := by
  unfold findFrom
  cases hrest : c.rest with
  | nil => rw [findAlong, ← hrest]; exact h
  | cons x xs => rw [findAlong, ← hrest, h]

/-- Where an expression has matched, it is found again. -/
theorem findFrom_again {e : Expr} {c : Cursor} {m : Match} (h : findFrom e c = some m) :
    findFrom e m.start = some m :=
  findFrom_of_matchAt (matchAt_of_findAlong h)

theorem findAlong_ahead {e : Expr} {m : Match} : ∀ {rest : List Char} {offset : Nat}
    {before : Option Char}, findAlong e offset before rest = some m →
      Ahead ⟨offset, before, rest⟩ m.start ∧ Ahead m.start m.stop := by
  intro rest
  induction rest with
  | nil =>
    intro offset before h
    exact ⟨matchAt_start h ▸ .here, matchAt_stop h⟩
  | cons c cs ih =>
    intro offset before h
    unfold findAlong at h
    split at h
    · next hm => cases h; exact ⟨matchAt_start hm ▸ .here, matchAt_stop hm⟩
    · exact ⟨(Ahead.past rfl).trans (ih h).1, (ih h).2⟩

theorem findFrom_start {e : Expr} {c : Cursor} {m : Match} (h : findFrom e c = some m) :
    Ahead c m.start :=
  (findAlong_ahead h).1

theorem findFrom_stop {e : Expr} {c : Cursor} {m : Match} (h : findFrom e c = some m) :
    Ahead m.start m.stop :=
  (findAlong_ahead h).2

end Expr

end Highlighting

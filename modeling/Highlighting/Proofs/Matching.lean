import Highlighting.Proofs.Literals

/-!
# What a repeated set matches

A set that is repeated as often as possible reaches each place in the stretch of its characters that
follows, the farthest first:

    ends (.rep least none true (.one set)) r  =  m, m - 1, …, least characters after r, where a
                                                 stretch of m follows r               (ends_many)

What a sequence prefers is what its second part prefers from where its first part prefers to end, if
there is such a thing (head?_ends_seq); and all that it reaches it reaches from where its first part
can end (exists_of_mem_ends_seq).  An expression that asks for the start of the text is found there
or nowhere (findFrom_textStart).
-/

namespace Highlighting

open Text (Cursor)

/-- How many characters of the set a text begins with. -/
def CharSet.stretch (set : CharSet) (cs : List Char) : Nat :=
  (cs.takeWhile set.mem).length

/-- The place so many characters further on, with the same groups. -/
def Reach.skip (r : Reach) (n : Nat) : Reach :=
  { r with here := r.here.skip n }

namespace CharSet

variable (set : CharSet)

@[simp] theorem stretch_nil : set.stretch [] = 0 := rfl

theorem stretch_cons (c : Char) (cs : List Char) :
    set.stretch (c :: cs) = if set.mem c then set.stretch cs + 1 else 0 := by
  unfold stretch
  rw [List.takeWhile_cons]
  split <;> rfl

theorem stretch_le (cs : List Char) : set.stretch cs ≤ cs.length :=
  (List.takeWhile_sublist _).length_le

theorem stretch_drop {cs : List Char} {n : Nat} (hn : n ≤ set.stretch cs) :
    set.stretch (cs.drop n) = set.stretch cs - n := by
  induction cs generalizing n with
  | nil => simp
  | cons c cs ih =>
    cases n with
    | zero => rfl
    | succ n =>
      rw [stretch_cons] at hn ⊢
      split at hn
      · next hc => rw [if_pos hc, List.drop_succ_cons, ih (Nat.le_of_succ_le_succ hn)]; omega
      · cases hn

/-- The stretch is made of the set, -/
theorem mem_of_mem_take_stretch {cs : List Char} {n : Nat} (hn : n ≤ set.stretch cs) :
    ∀ c ∈ cs.take n, set.mem c = true := by
  intro c hc
  have hstands : cs.take n <+: cs.takeWhile set.mem :=
    List.prefix_of_prefix_length_le (List.take_prefix _ _) (List.takeWhile_prefix _)
      (Nat.le_trans (List.length_take_le _ _) hn)
  exact List.all_eq_true.1 List.all_takeWhile c (hstands.subset hc)

/-- and ends before the first character that is not. -/
theorem stretch_append {front back : List Char} (hfront : ∀ c ∈ front, set.mem c = true)
    (hback : ∀ c, back.head? = some c → set.mem c = false) :
    set.stretch (front ++ back) = front.length := by
  unfold stretch
  rw [List.takeWhile_append_of_pos hfront, List.length_append, Nat.add_eq_left,
    List.length_eq_zero_iff]
  cases back with
  | nil => rfl
  | cons c cs => rw [List.takeWhile_cons, hback c rfl]; rfl

end CharSet

namespace Reach

variable (r : Reach) (n k : Nat)

@[simp] theorem skip_here : (r.skip n).here = r.here.skip n := rfl

@[simp] theorem skip_zero : r.skip 0 = r := rfl

@[simp] theorem skip_skip : (r.skip n).skip k = r.skip (n + k) := by
  simp only [skip, Cursor.skip_add]

end Reach

theorem Text.Cursor.offset_lt_skip {c : Cursor} {n : Nat} (hn : 0 < n) (hrest : c.rest ≠ []) :
    c.offset < (c.skip n).offset := by
  obtain ⟨x, xs, hc⟩ := List.exists_cons_of_ne_nil hrest
  obtain ⟨n, rfl⟩ := Nat.exists_eq_succ_of_ne_zero (Nat.ne_of_gt hn)
  have := x.utf8Size_pos
  rw [skip_offset, hc, List.take_succ_cons, byteLength]
  omega

theorem Text.Cursor.upTo_append {c : Cursor} {front back : List Char}
    (hrest : c.rest = front ++ back) : c.upTo (c.skip front.length) = front := by
  rw [upTo_skip c (by simp [hrest]), hrest, List.take_left]

theorem Match.filled_of_skip {m : Match} {n : Nat} (hstop : m.stop = m.start.skip n) (hn : 0 < n)
    (hrest : m.start.rest ≠ []) : m.filled = true := by
  rw [Span.filled, hstop, decide_eq_true_eq]
  exact Cursor.offset_lt_skip hn hrest

namespace Reach

variable {set : CharSet} {r : Reach} {n : Nat}

theorem stretch_skip (hn : n ≤ set.stretch r.here.rest) :
    set.stretch (r.skip n).here.rest = set.stretch r.here.rest - n := by
  rw [skip_here, Cursor.skip_rest, set.stretch_drop hn]

theorem offset_lt_skip (hstretch : 0 < set.stretch r.here.rest) (hn : 0 < n) :
    r.here.offset < (r.skip n).here.offset := by
  refine Cursor.offset_lt_skip hn fun hrest => ?_
  rw [hrest, CharSet.stretch_nil] at hstretch
  exact Nat.lt_irrefl 0 hstretch

end Reach

namespace Expr

/-! ## One set, over and over -/

section
variable (set : CharSet) (r : Reach)

theorem ends_one :
    ends (.one set) r = if 1 ≤ set.stretch r.here.rest then [r.skip 1] else [] := by
  simp only [ends]
  cases hrest : r.here.rest with
  | nil => simp
  | cons c cs =>
    have hskip : r.skip 1 = ⟨r.here.past c cs, r.groups⟩ := by
      simp [Reach.skip, Cursor.skip, Cursor.next?, hrest]
    simp only [CharSet.stretch_cons, hskip]
    by_cases hc : set.mem c = true <;> simp [hc]

theorem exactly_one (n : Nat) : exactly (ends (.one set)) n r =
    if n ≤ set.stretch r.here.rest then [r.skip n] else [] := by
  induction n with
  | zero => simp [exactly]
  | succ n ih =>
    rw [exactly, ih]
    split
    · next hn =>
      rw [List.flatMap_singleton, ends_one, Reach.stretch_skip hn]
      by_cases hlt : n + 1 ≤ set.stretch r.here.rest
      · rw [if_pos (by omega), if_pos hlt, Reach.skip_skip]
        rfl
      · rw [if_neg (by omega), if_neg hlt]
        rfl
    · rw [if_neg (by omega)]
      rfl

/-- The places within the stretch, the nearest first. -/
theorem explore_one (rounds : Nat) (hrounds : set.stretch r.here.rest ≤ rounds) :
    explore (ends (.one set)) true rounds [] r =
      (List.range (set.stretch r.here.rest + 1)).map r.skip := by
  induction rounds generalizing r with
  | zero =>
    rw [Nat.le_zero.1 hrounds]
    rfl
  | succ rounds ih =>
    have hfound : isFound [] r = false := rfl
    rw [explore, hfound, if_neg Bool.false_ne_true, if_pos rfl, ends_one]
    split
    · next hone =>
      have hstretch := Reach.stretch_skip hone
      have hfurther : [r.skip 1].filter (fun s => r.here.offset < s.here.offset) = [r.skip 1] := by
        simpa using Reach.offset_lt_skip hone Nat.one_pos
      rw [hfurther, List.foldl_cons, List.foldl_nil, ih (r.skip 1) (by omega), hstretch,
        Nat.sub_add_cancel hone, List.range_succ_eq_map, List.map_cons, List.map_map]
      exact congrArg _ (List.map_congr_left fun n _ => by simp [Nat.add_comm])
    · next hnone =>
      rw [Nat.lt_one_iff.1 (Nat.lt_of_not_le hnone)]
      rfl

theorem exploreSome_one : exploreSome (ends (.one set)) true [] r =
    (List.range' 1 (set.stretch r.here.rest)).map r.skip := by
  rw [exploreSome, ends_one]
  split
  · next hone =>
    have hlt : r.here.offset < (r.skip 1).here.offset := Reach.offset_lt_skip hone Nat.one_pos
    rw [List.foldl_cons, List.foldl_nil, if_pos hlt, explore_one set _ _ (set.stretch_le _),
      Reach.stretch_skip hone, Nat.sub_add_cancel hone, List.range'_eq_map_range, List.map_map]
    exact List.map_congr_left fun n _ => by simp
  · next hnone =>
    rw [Nat.lt_one_iff.1 (Nat.lt_of_not_le hnone)]
    rfl

/-- A set that is repeated as often as possible reaches the places within the stretch. -/
theorem ends_many (least : Nat) : ends (.rep least none true (.one set)) r =
    ((List.range' least (set.stretch r.here.rest + 1 - least)).map r.skip).reverse := by
  have hsome := exploreSome_one set r
  cases least with
  | zero =>
    show (record (exploreSome (ends (.one set)) true [] r) r).reverse = _
    have hnot : isFound ((List.range' 1 (set.stretch r.here.rest)).map r.skip) r = false := by
      simp only [isFound, List.any_eq_false, List.mem_map, List.mem_range'_1, beq_iff_eq]
      rintro _ ⟨n, ⟨hpos, hlt⟩, rfl⟩ heq
      have hstretch : 0 < set.stretch r.here.rest := by omega
      exact absurd heq (Nat.ne_of_gt (Reach.offset_lt_skip hstretch hpos))
    rw [hsome, record, hnot, if_neg Bool.false_ne_true, Nat.sub_zero, List.range'_succ,
      List.map_cons, Reach.skip_zero]
  | succ least =>
    show ((exactly (ends (.one set)) least r).foldl
      (exploreSome (ends (.one set)) true) []).reverse = _
    rw [exactly_one]
    split
    · next hle =>
      rw [List.foldl_cons, List.foldl_nil, exploreSome_one, Reach.stretch_skip hle,
        Nat.add_sub_add_right, List.range'_eq_map_range, List.range'_eq_map_range, List.map_map,
        List.map_map]
      exact congrArg _ (List.map_congr_left fun n _ => by simp [Nat.add_assoc])
    · next hlt =>
      rw [Nat.sub_eq_zero_of_le (by omega)]
      rfl

variable {set r} {least : Nat}

theorem head?_ends_many (hle : least ≤ set.stretch r.here.rest) :
    (ends (.rep least none true (.one set)) r).head? = some (r.skip (set.stretch r.here.rest)) := by
  rw [ends_many, List.head?_reverse, List.getLast?_map, Nat.sub_add_comm hle, List.range'_concat,
    List.getLast?_concat, Option.map_some, Nat.one_mul, Nat.add_sub_cancel' hle]

theorem ends_many_eq_nil (hlt : set.stretch r.here.rest < least) :
    ends (.rep least none true (.one set)) r = [] := by
  rw [ends_many, Nat.sub_eq_zero_of_le hlt]
  rfl

theorem exists_of_mem_ends_many {s : Reach} (hs : s ∈ ends (.rep least none true (.one set)) r) :
    ∃ n ≤ set.stretch r.here.rest, s = r.skip n := by
  rw [ends_many, List.mem_reverse] at hs
  obtain ⟨n, hn, rfl⟩ := List.mem_map.1 hs
  rw [List.mem_range'_1] at hn
  exact ⟨n, by omega, rfl⟩

end

/-! ## One part after the other -/

section
variable {a b : Expr} {r s t : Reach}

@[simp] theorem head?_distinct (rs : List Reach) : (distinct rs).head? = rs.head? := by
  rw [distinct_eq_firsts]
  cases rs <;> rfl

theorem ends_seq (a b : Expr) (r : Reach) :
    ends (.seq a b) r = distinct ((ends a r).flatMap (ends b)) := rfl

theorem head?_ends_seq (ha : (ends a r).head? = some t) (hb : (ends b t).head? = some s) :
    (ends (.seq a b) r).head? = some s := by
  obtain ⟨front, hfront⟩ := List.head?_eq_some_iff.1 ha
  rw [ends_seq, head?_distinct, hfront, List.flatMap_cons, List.head?_append, hb, Option.some_or]

theorem exists_of_mem_ends_seq (hs : s ∈ ends (.seq a b) r) : ∃ t ∈ ends a r, s ∈ ends b t :=
  List.mem_flatMap.1 (mem_of_mem_distinct hs)

@[simp] theorem head?_ends_alt :
    (ends (.alt a b) r).head? = (ends a r).head?.or (ends b r).head? := by
  rw [ends, head?_distinct, List.head?_append]

@[simp] theorem head?_ends_group (index : Nat) : (ends (.group index a) r).head? =
    (ends a r).head?.map fun s => { s with groups := (index, ⟨r.here, s.here⟩) :: s.groups } := by
  rw [ends, List.head?_map]

theorem ends_look (condition : Look) (r : Reach) :
    ends (.look condition) r = if condition.holds r.here then [r] else [] := rfl

theorem head?_ends_look {condition : Look} (h : condition.holds r.here = true) :
    (ends (.look condition) r).head? = some r := by
  rw [ends_look, if_pos h]
  rfl

theorem of_mem_ends_look {condition : Look} (hs : s ∈ ends (.look condition) r) :
    condition.holds r.here = true ∧ s = r := by
  rw [ends_look] at hs
  split at hs
  · next h => exact ⟨h, List.mem_singleton.1 hs⟩
  · cases hs

end

/-! ## Characters that stand for themselves -/

/-- The expressions of single characters. -/
def singles (cs : List Char) : List Expr :=
  cs.map fun c => .one (.single c)

theorem sequence_cons (e : Expr) {es : List Expr} (hes : es ≠ []) :
    sequence (e :: es) = .seq e (sequence es) := by
  cases es with
  | nil => exact absurd rfl hes
  | cons => rfl

@[simp] theorem literal?_singles (cs : List Char) : (sequence (singles cs)).literal? = some cs := by
  induction cs with
  | nil => rfl
  | cons c cs ih =>
    have hone : (one (.single c)).literal? = some [c] := by
      simp [literal?, CharSet.only?, CharSet.single]
    cases cs with
    | nil => exact hone
    | cons d ds =>
      rw [singles, List.map_cons, sequence_cons _ (by simp), literal?, hone]
      exact congrArg (Option.map ([c] ++ ·)) ih

theorem ends_single (c : Char) (r : Reach) :
    ends (.one (.single c)) r = if [c] <+: r.here.rest then [r.skip 1] else [] := by
  rw [ends_one]
  cases r.here.rest with
  | nil => simp
  | cons d ds =>
    have hiff : 1 ≤ (CharSet.single c).stretch (d :: ds) ↔ [c] <+: d :: ds := by
      rw [CharSet.stretch_cons, CharSet.mem_single, List.cons_prefix_cons]
      by_cases hd : d = c
      · simp [hd]
      · simp [hd, Ne.symm hd]
    simp only [hiff]

section
variable {es : List Expr} (hes : es ≠ []) {r s : Reach}
include hes

theorem head?_ends_singles (cs : List Char) (hcs : cs <+: r.here.rest)
    (hs : (ends (sequence es) (r.skip cs.length)).head? = some s) :
    (ends (sequence (singles cs ++ es)) r).head? = some s := by
  induction cs generalizing r with
  | nil => exact hs
  | cons c cs ih =>
    obtain ⟨back, hback⟩ := hcs
    have hrest : (r.skip 1).here.rest = cs ++ back := by simp [← hback]
    rw [singles, List.map_cons, List.cons_append, sequence_cons _ (by simp [hes])]
    refine head?_ends_seq (t := r.skip 1) ?_ (ih (hrest ▸ List.prefix_append cs back) ?_)
    · rw [ends_single, if_pos (by simp [← hback])]
      rfl
    · rwa [Reach.skip_skip, Nat.add_comm]

theorem of_mem_ends_singles (cs : List Char) (hs : s ∈ ends (sequence (singles cs ++ es)) r) :
    cs <+: r.here.rest ∧ s ∈ ends (sequence es) (r.skip cs.length) := by
  induction cs generalizing r with
  | nil => exact ⟨List.nil_prefix, hs⟩
  | cons c cs ih =>
    rw [singles, List.map_cons, List.cons_append, sequence_cons _ (by simp [hes])] at hs
    obtain ⟨t, ht, hs⟩ := exists_of_mem_ends_seq hs
    rw [ends_single] at ht
    split at ht
    · next hc =>
      obtain rfl := List.mem_singleton.1 ht
      obtain ⟨back, hback⟩ := hc
      obtain ⟨hcs, hs⟩ := ih hs
      rw [Reach.skip_here, Cursor.skip_rest, ← hback] at hcs
      rw [Reach.skip_skip, Nat.add_comm] at hs
      rw [← hback]
      exact ⟨List.cons_prefix_cons.2 ⟨rfl, hcs⟩, hs⟩
    · cases ht

end

/-! ## At the start of the text -/

/-- An expression that asks for the start of the text matches nowhere else, -/
theorem matchAt_textStart (e : Expr) {c : Cursor} (hc : c.before ≠ none) :
    matchAt (.seq (.look .textStart) e) c = none := by
  have hends : ends (.look .textStart) ⟨c, []⟩ = [] := by
    rw [ends_look, if_neg]
    simpa [Look.holds] using hc
  simp [matchAt, ends_seq, hends]

/-- so that it is found where the search begins or not at all. -/
theorem findFrom_textStart (e : Expr) (c : Cursor) :
    findFrom (.seq (.look .textStart) e) c = matchAt (.seq (.look .textStart) e) c := by
  obtain ⟨offset, before, rest⟩ := c
  induction rest generalizing offset before with
  | nil => rfl
  | cons x xs ih =>
    rw [findFrom_next _ (d := ⟨offset + x.utf8Size, some x, xs⟩) rfl, ih,
      matchAt_textStart e (c := ⟨_, some x, xs⟩) (Option.some_ne_none x), Option.or_none]

end Expr

/-- What an expression prefers where the search begins is what is found. -/
theorem Pattern.find_of_head {p : Pattern} {c : Cursor} {s : Reach}
    (h : (Expr.ends p.expr ⟨c, []⟩).head? = some s) : p.find c = some ⟨⟨c, s.here⟩, s.groups⟩ :=
  Expr.findFrom_of_matchAt (by rw [Expr.matchAt, h, Option.map_some])

end Highlighting

import Mathlib.Data.List.Nodup

/-!
# Brackets

Words of things that open or close, each close being joined to the latest open before it that has
none yet.  `partner` follows this rule with a stack; `Encloses` says what it comes to: between the
two, opens and closes balance, and nowhere have more been closed than opened.

    partner w x = some y  ↔  Encloses w x y, if nothing stands in w twice    (partner_eq_some_iff)

An open that is left on the stack at some point is joined to the close that first takes the depth
below it from there on:

    partner (u ++ v) x = closing (p + 1) v,  where p opens lie above x after u    (partner_append)

The opens that nothing closes are those left on the stack, from the bottom up    (filter_unpaired)

What closes an open from before a word does not stand between an open that the word leaves on the
stack and what closes that one                                                      (closing_apart)
-/

namespace Highlighting.Brackets

variable {α : Type} (opens : α → Bool)

/-! ## Algorithm -/

/-- The opens that are not closed after a word, the latest first, when those of `stack` were not
before it. -/
def unmatched (stack : List α) : List α → List α
  | [] => stack
  | x :: w => if opens x then unmatched (x :: stack) w else unmatched stack.tail w

/-- Each close of a word with the open that it closes; a close that finds none open is in no
pair. -/
def pairs (stack : List α) : List α → List (α × α)
  | [] => []
  | x :: w =>
    if opens x then pairs (x :: stack) w
    else match stack with
      | [] => pairs [] w
      | o :: stack => (o, x) :: pairs stack w

/-- What closes an open of a word. -/
def partner [BEq α] (w : List α) (x : α) : Option α :=
  (pairs opens [] w).lookup x

/-- The close that closes the last of `depth` opens. -/
def closing : (depth : Nat) → List α → Option α
  | _, [] => none
  | depth, x :: w =>
    if opens x then closing (depth + 1) w
    else if depth ≤ 1 then some x
    else closing (depth - 1) w

/-- How many are open after a word, when so many were before it. -/
def depthAfter : (depth : Nat) → List α → Nat
  | depth, [] => depth
  | depth, x :: w => depthAfter (if opens x then depth + 1 else depth - 1) w

/-- How many more opens than closes there are. -/
def balance : List α → Int
  | [] => 0
  | x :: w => (if opens x then 1 else -1) + balance w

/-- The close `y` stands after the open `x`; between them opens and closes balance, and in no part
from `x` on are there more closes than opens. -/
def Encloses (w : List α) (x y : α) : Prop :=
  ∃ u v t, w = u ++ x :: v ++ y :: t ∧ opens x = true ∧ opens y = false ∧ balance opens v = 0 ∧
    ∀ n, 0 ≤ balance opens (v.take n)

/-! ## Stacks -/

section
variable (s u v w : List α)

theorem unmatched_append :
    unmatched opens s (u ++ v) = unmatched opens (unmatched opens s u) v := by
  induction u generalizing s with
  | nil => rfl
  | cons x u ih =>
    simp only [List.cons_append, unmatched]
    split <;> exact ih _

theorem pairs_append :
    pairs opens s (u ++ v) = pairs opens s u ++ pairs opens (unmatched opens s u) v := by
  induction u generalizing s with
  | nil => rfl
  | cons x u ih =>
    simp only [List.cons_append, pairs, unmatched]
    split
    · exact ih _
    · cases s with
      | nil => exact ih []
      | cons o s => exact congrArg ((o, x) :: ·) (ih s)

/-- What a word leaves open lies above what is left of the stack there was. -/
theorem unmatched_base :
    ∃ k, ∀ s, unmatched opens s w = unmatched opens [] w ++ s.drop k := by
  induction w with
  | nil => exact ⟨0, fun s => rfl⟩
  | cons x w ih =>
    obtain ⟨k, hk⟩ := ih
    simp only [unmatched]
    split
    · cases k with
      | zero => exact ⟨0, fun s => by rw [hk (x :: s), hk [x]]; simp⟩
      | succ k => exact ⟨k, fun s => by rw [hk (x :: s), hk [x]]; simp⟩
    · refine ⟨k + 1, ?_⟩
      intro s
      rw [hk s.tail, List.tail_nil, ← List.drop_one, List.drop_drop, Nat.add_comm]

theorem unmatched_map {β : Type} (f : α → β) (opens' : β → Bool) (h : ∀ x, opens' (f x) = opens x) :
    unmatched opens' (s.map f) (w.map f) = (unmatched opens s w).map f := by
  induction w generalizing s with
  | nil => rfl
  | cons x w ih =>
    simp only [List.map_cons, unmatched, h]
    split
    · exact ih (x :: s)
    · rw [← List.map_tail]
      exact ih s.tail

/-- What is open was so before the word, or opens in it. -/
theorem opens_of_mem_unmatched {x : α} (hx : x ∈ unmatched opens s w) :
    x ∈ s ∨ x ∈ w ∧ opens x = true := by
  induction w generalizing s with
  | nil => exact .inl hx
  | cons y w ih =>
    simp only [unmatched] at hx
    split at hx
    · next hy =>
      rcases ih _ hx with hx | ⟨hx, hopens⟩
      · rcases List.mem_cons.1 hx with rfl | hx
        · exact .inr ⟨.head _, hy⟩
        · exact .inl hx
      · exact .inr ⟨.tail _ hx, hopens⟩
    · rcases ih _ hx with hx | ⟨hx, hopens⟩
      · exact .inl (List.mem_of_mem_tail hx)
      · exact .inr ⟨.tail _ hx, hopens⟩

/-- What is open stands in the word or was open before. -/
theorem mem_unmatched {x : α} (hx : x ∈ unmatched opens s w) : x ∈ s ∨ x ∈ w :=
  (opens_of_mem_unmatched opens s w hx).imp id And.left

/-- What is open lies on the stack in the order of the word. -/
theorem reverse_unmatched_sublist : (unmatched opens s w).reverse.Sublist (s.reverse ++ w) := by
  induction w generalizing s with
  | nil => simp [unmatched]
  | cons y w ih =>
    simp only [unmatched]
    split
    · simpa using ih (y :: s)
    · refine (ih s.tail).trans ?_
      exact (List.tail_sublist s).reverse.append (List.sublist_cons_self y w)
theorem unmatched_nodup (hn : (s ++ w).Nodup) : (unmatched opens s w).Nodup := by
  induction w generalizing s with
  | nil =>
    rw [List.append_nil] at hn
    exact hn
  | cons y w ih =>
    simp only [unmatched]
    split
    · exact ih _ (List.nodup_middle.1 hn)
    · refine ih _ (hn.sublist ?_)
      exact (List.tail_sublist s).append (List.sublist_cons_self y w)

/-- What is open is in no pair yet. -/
theorem pairs_unmatched (hn : (s ++ w).Nodup) (o y : α) (h : (o, y) ∈ pairs opens s w) :
    o ∉ unmatched opens s w := by
  induction w generalizing s with
  | nil => cases h
  | cons x w ih =>
    simp only [pairs, unmatched] at h ⊢
    split at h
    · next hx =>
      rw [if_pos hx]
      exact ih _ (List.nodup_middle.1 hn) h
    · next hx =>
      rw [if_neg hx]
      cases s with
      | nil => exact ih [] (hn.sublist (List.sublist_cons_self x w)) h
      | cons a s =>
        have hsub : (s ++ w).Sublist (a :: s ++ x :: w) :=
          (List.sublist_cons_self a s).append (List.sublist_cons_self x w)
        rcases List.mem_cons.1 h with heq | h
        · obtain ⟨rfl, rfl⟩ := Prod.mk.inj heq
          intro hmem
          have hmem' := mem_unmatched opens s w hmem
          rw [List.cons_append, List.nodup_cons] at hn
          refine hn.1 ?_
          rcases hmem' with hmem' | hmem'
          · exact List.mem_append_left _ hmem'
          · exact List.mem_append_right _ (.tail _ hmem')
        · exact ih s (hn.sublist hsub) h

/-- Only opens are in pairs. -/
theorem opens_of_mem_pairs (o y : α) (h : (o, y) ∈ pairs opens s w) :
    o ∈ s ∨ o ∈ w ∧ opens o = true := by
  induction w generalizing s with
  | nil => cases h
  | cons x w ih =>
    simp only [pairs] at h
    split at h
    · next hx =>
      rcases ih _ h with h | ⟨h, ho⟩
      · rcases List.mem_cons.1 h with rfl | h
        · exact .inr ⟨.head _, hx⟩
        · exact .inl h
      · exact .inr ⟨.tail _ h, ho⟩
    · cases s with
      | nil =>
        rcases ih [] h with h | ⟨h, ho⟩
        · cases h
        · exact .inr ⟨.tail _ h, ho⟩
      | cons a s =>
        rcases List.mem_cons.1 h with heq | h
        · exact .inl ((Prod.mk.inj heq).1 ▸ .head _)
        · rcases ih s h with h | ⟨h, ho⟩
          · exact .inl (.tail _ h)
          · exact .inr ⟨.tail _ h, ho⟩

/-- An open is left on the stack or closed by something. -/
theorem mem_unmatched_or_pairs {x : α} (hx : x ∈ s ∨ x ∈ w ∧ opens x = true) :
    x ∈ unmatched opens s w ∨ ∃ y, (x, y) ∈ pairs opens s w := by
  induction w generalizing s with
  | nil => exact .inl (hx.resolve_right fun h => List.not_mem_nil h.1)
  | cons y w ih =>
    simp only [unmatched, pairs]
    split
    · next hy =>
      refine ih (y :: s) ?_
      rcases hx with hx | ⟨hx, hopens⟩
      · exact .inl (.tail _ hx)
      · rcases List.mem_cons.1 hx with rfl | hx
        · exact .inl (.head _)
        · exact .inr ⟨hx, hopens⟩
    · next hy =>
      have hrest : x ∈ y :: w ∧ opens x = true → x ∈ w ∧ opens x = true := by
        rintro ⟨hx, hopens⟩
        rcases List.mem_cons.1 hx with rfl | hx
        · exact absurd hopens hy
        · exact ⟨hx, hopens⟩
      cases s with
      | nil => exact ih [] (.inr (hrest (hx.resolve_left List.not_mem_nil)))
      | cons o s =>
        rcases hx with hx | hx
        · rcases List.mem_cons.1 hx with rfl | hx
          · exact .inr ⟨y, .head _⟩
          · exact (ih s (.inl hx)).imp id fun ⟨z, hz⟩ => ⟨z, .tail _ hz⟩
        · exact (ih s (.inr (hrest hx))).imp id fun ⟨z, hz⟩ => ⟨z, .tail _ hz⟩

/-! ## Closing -/

theorem closing_append (d : Nat) :
    closing opens d (u ++ v) =
      (closing opens d u).or (closing opens (depthAfter opens d u) v) := by
  induction u generalizing d with
  | nil => rfl
  | cons x u ih =>
    simp only [List.cons_append, closing, depthAfter]
    split
    · exact ih _
    · split
      · rfl
      · exact ih _

theorem closing_map {β : Type} (f : α → β) (opens' : β → Bool) (h : ∀ x, opens' (f x) = opens x)
    (d : Nat) : closing opens' d (w.map f) = (closing opens d w).map f := by
  induction w generalizing d with
  | nil => rfl
  | cons x w ih =>
    simp only [List.map_cons, closing, h]
    split
    · exact ih _
    · split
      · rfl
      · exact ih _

theorem depthAfter_map {β : Type} (f : α → β) (opens' : β → Bool)
    (h : ∀ x, opens' (f x) = opens x) (d : Nat) :
    depthAfter opens' d (w.map f) = depthAfter opens d w := by
  induction w generalizing d with
  | nil => rfl
  | cons x w ih =>
    simp only [List.map_cons, depthAfter, h]
    exact ih _

theorem mem_of_closing (d : Nat) (y : α) (h : closing opens d w = some y) : y ∈ w := by
  induction w generalizing d with
  | nil => cases h
  | cons x w ih =>
    simp only [closing] at h
    split at h
    · exact .tail _ (ih _ h)
    · split at h
      · obtain rfl := Option.some.inj h
        exact .head _
      · exact .tail _ (ih _ h)

/-- What lies less deep is closed no later than what lies deeper. -/
theorem closing_of_le (d e : Nat) (hde : d ≤ e) (y : α) (h : closing opens e w = some y) :
    ∃ z v t, closing opens d w = some z ∧ w = v ++ z :: t ∧ y ∈ z :: t := by
  induction w generalizing d e with
  | nil => cases h
  | cons x w ih =>
    have hmem := mem_of_closing opens (x :: w) e y h
    simp only [closing] at h ⊢
    by_cases hx : opens x = true
    · rw [if_pos hx] at h ⊢
      obtain ⟨z, v, t, hz, rfl, hy⟩ := ih (d + 1) (e + 1) (by omega) h
      exact ⟨z, x :: v, t, hz, rfl, hy⟩
    · rw [if_neg hx] at h ⊢
      by_cases hone : d ≤ 1
      · rw [if_pos hone]
        exact ⟨x, [], w, rfl, rfl, hmem⟩
      · rw [if_neg (show ¬e ≤ 1 by omega)] at h
        rw [if_neg hone]
        obtain ⟨z, v, t, hz, rfl, hy⟩ := ih (d - 1) (e - 1) (by omega) h
        exact ⟨z, x :: v, t, hz, rfl, hy⟩

/-- What is not closed is not closed either when it lies deeper. -/
theorem closing_none_of_le (d e : Nat) (hde : d ≤ e) (h : closing opens d w = none) :
    closing opens e w = none := by
  rw [Option.eq_none_iff_forall_ne_some]
  intro y hy
  obtain ⟨z, -, -, hz, -⟩ := closing_of_le opens w d e hde y hy
  rw [h] at hz
  cases hz

/-- Opens at two depths are closed by two closes. -/
theorem closing_ne (hn : w.Nodup) (d e : Nat) (hd : 1 ≤ d) (hde : d < e) (y z : α)
    (hy : closing opens d w = some y) (hz : closing opens e w = some z) : y ≠ z := by
  induction w generalizing d e with
  | nil => cases hy
  | cons x w ih =>
    rw [List.nodup_cons] at hn
    simp only [closing] at hy hz
    split at hy
    · next hx =>
      rw [if_pos hx] at hz
      exact ih hn.2 (d + 1) (e + 1) (by omega) (by omega) hy hz
    · next hx =>
      rw [if_neg hx, if_neg (by omega)] at hz
      split at hy
      · obtain rfl := Option.some.inj hy
        rintro rfl
        exact hn.1 (mem_of_closing opens w (e - 1) x hz)
      · exact ih hn.2 (d - 1) (e - 1) (by omega) (by omega) hy hz

/-- The depth, `d` before the word, is never below 1 in it and 1 after it. -/
def StaysOpen (d : Int) (v : List α) : Prop :=
  d + balance opens v = 1 ∧ ∀ n, 1 ≤ d + balance opens (v.take n)

variable {opens} in
theorem StaysOpen.pos {d : Int} {v : List α} (h : StaysOpen opens d v) : 1 ≤ d := by
  have := h.2 0
  simp only [List.take_zero, balance] at this
  omega

@[simp] theorem staysOpen_nil (d : Int) : StaysOpen opens d [] ↔ d = 1 := by
  simp only [StaysOpen, List.take_nil, balance]
  exact ⟨fun h => by omega, fun h => ⟨by omega, fun _ => by omega⟩⟩

theorem staysOpen_cons (d : Int) (x : α) (v : List α) :
    StaysOpen opens d (x :: v) ↔
      1 ≤ d ∧ StaysOpen opens (d + if opens x then 1 else -1) v := by
  simp only [StaysOpen, balance]
  constructor
  · rintro ⟨hbal, hmin⟩
    have hzero := hmin 0
    simp only [List.take_zero, balance] at hzero
    refine ⟨by omega, by omega, ?_⟩
    intro n
    have hsucc := hmin (n + 1)
    simp only [List.take_succ_cons, balance] at hsucc
    omega
  · rintro ⟨hd, hbal, hmin⟩
    refine ⟨by omega, ?_⟩
    intro n
    cases n with
    | zero =>
      simp only [List.take_zero, balance]
      omega
    | succ n =>
      have hrest := hmin n
      simp only [List.take_succ_cons, balance]
      omega

/-- A word reaches a close while the depth stays above 0: it does so at once, or after its first
letter. -/
theorem reaches_cons (d : Int) (x y : α) :
    (∃ v t, x :: w = v ++ y :: t ∧ opens y = false ∧ StaysOpen opens d v) ↔
      (x = y ∧ opens x = false ∧ d = 1) ∨
      (1 ≤ d ∧ ∃ v t, w = v ++ y :: t ∧ opens y = false ∧
        StaysOpen opens (d + if opens x then 1 else -1) v) := by
  constructor
  · rintro ⟨v, t, heq, hy, hopen⟩
    cases v with
    | nil =>
      obtain ⟨rfl, -⟩ := List.cons.inj heq
      exact .inl ⟨rfl, hy, (staysOpen_nil opens d).1 hopen⟩
    | cons z v =>
      obtain ⟨rfl, rfl⟩ := List.cons.inj heq
      obtain ⟨hd, hrest⟩ := (staysOpen_cons opens d x v).1 hopen
      exact .inr ⟨hd, v, t, rfl, hy, hrest⟩
  · rintro (⟨rfl, hx, rfl⟩ | ⟨hd, v, t, rfl, hy, hrest⟩)
    · exact ⟨[], w, rfl, hx, (staysOpen_nil opens 1).2 rfl⟩
    · exact ⟨x :: v, t, rfl, hy, (staysOpen_cons opens d x v).2 ⟨hd, hrest⟩⟩

/-- The close that is found is the first that takes the depth to 0. -/
theorem closing_eq_some_iff (d : Nat) (hd : 1 ≤ d) (y : α) :
    closing opens d w = some y ↔
      ∃ v t, w = v ++ y :: t ∧ opens y = false ∧ StaysOpen opens d v := by
  induction w generalizing d with
  | nil => simp [closing]
  | cons x w ih =>
    rw [reaches_cons]
    simp only [closing]
    cases hx : opens x with
    | true =>
      have hd' : (1 : Int) ≤ d := by omega
      rw [if_pos rfl, ih (d + 1) (by omega)]
      simp [hd']
    | false =>
      rw [if_neg Bool.false_ne_true]
      split
      · next hone =>
        obtain rfl : d = 1 := by omega
        constructor
        · rintro h
          exact .inl ⟨Option.some.inj h, rfl, rfl⟩
        · rintro (⟨rfl, -, -⟩ | ⟨-, v, t, -, -, hopen⟩)
          · rfl
          · have := hopen.pos
            simp at this
      · next hmore =>
        have hd' : (1 : Int) ≤ d ∧ (d : Int) ≠ 1 := by omega
        rw [ih (d - 1) (by omega), show ((d - 1 : Nat) : Int) = d + -1 by omega]
        simp [hd'.1, hd'.2]

end

/-! ## Partners -/

theorem filter_eq_of_sublist {l w : List α} (h : l.Sublist w) (hn : w.Nodup) (p : α → Bool)
    (hp : ∀ x ∈ w, p x = true ↔ x ∈ l) : w.filter p = l := by
  induction h with
  | slnil => rfl
  | cons a h ih =>
    rw [List.nodup_cons] at hn
    have ha : ¬p a = true := fun ha => hn.1 (h.subset ((hp a (.head _)).1 ha))
    rw [List.filter_cons_of_neg ha]
    exact ih hn.2 fun x hx => hp x (.tail _ hx)
  | cons_cons a h ih =>
    rw [List.nodup_cons] at hn
    rw [List.filter_cons_of_pos ((hp a (.head _)).2 (.head _))]
    refine congrArg (a :: ·) (ih hn.2 fun x hx => (hp x (.tail _ hx)).trans ?_)
    have hne : x ≠ a := fun heq => hn.1 (heq ▸ hx)
    simp [hne]

section
variable [BEq α] [LawfulBEq α] (s u v w : List α)

/-- What has so many opens above it on the stack is closed when that many and one more have been. -/
theorem lookup_pairs (hn : (s ++ w).Nodup) (p : Nat) (x : α) (hx : s[p]? = some x) :
    (pairs opens s w).lookup x = closing opens (p + 1) w := by
  induction w generalizing s p with
  | nil => rfl
  | cons y w ih =>
    simp only [pairs, closing]
    split
    · exact ih (y :: s) (List.nodup_middle.1 hn) (p + 1) (by simpa using hx)
    · cases s with
      | nil => simp at hx
      | cons o s =>
        rw [List.lookup_cons]
        cases p with
        | zero =>
          obtain rfl : o = x := by simpa using hx
          simp
        | succ p =>
          have hx : s[p]? = some x := by simpa using hx
          have hne : (x == o) = false := by
            rw [List.cons_append, List.nodup_cons] at hn
            refine beq_eq_false_iff_ne.2 fun heq => hn.1 ?_
            exact List.mem_append_left _ (heq ▸ List.mem_of_getElem? hx)
          have hsub : (s ++ w).Sublist (o :: s ++ y :: w) :=
            (List.sublist_cons_self o s).append (List.sublist_cons_self y w)
          rw [hne, if_neg (by omega)]
          exact ih s (hn.sublist hsub) p hx

/-- An open that is on the stack after `u`, with `p` others above it, is closed in `v`. -/
theorem partner_append (hn : (u ++ v).Nodup) (p : Nat) (x : α)
    (hx : (unmatched opens [] u)[p]? = some x) :
    partner opens (u ++ v) x = closing opens (p + 1) v := by
  have hu : ([] ++ u : List α).Nodup := hn.sublist (List.sublist_append_left u v)
  have hmem : x ∈ unmatched opens [] u := List.mem_of_getElem? hx
  have hnone : (pairs opens [] u).lookup x = none := by
    refine List.lookup_eq_none_iff.2 ?_
    intro e he
    have hne : x ≠ e.1 := fun heq => pairs_unmatched opens [] u hu e.1 e.2 he (heq ▸ hmem)
    simpa using hne
  have hstack : (unmatched opens [] u ++ v).Nodup := by
    refine List.nodup_append.2 ⟨unmatched_nodup opens [] u hu, (List.nodup_append.1 hn).2.1, ?_⟩
    intro a ha b hb
    rcases mem_unmatched opens [] u ha with ha | ha
    · cases ha
    · exact (List.nodup_append.1 hn).2.2 a ha b hb
  rw [partner, pairs_append, List.lookup_append, hnone, Option.none_or]
  exact lookup_pairs opens _ v hstack p x hx

/-- Where nothing stands twice, the stack joins what balance joins. -/
theorem partner_eq_some_iff (hn : w.Nodup) (x y : α) :
    partner opens w x = some y ↔ Encloses opens w x y := by
  have hopened : ∀ u v, w = u ++ x :: v → opens x = true →
      partner opens w x = closing opens 1 v := by
    rintro u v rfl hx
    rw [List.append_cons] at hn ⊢
    refine partner_append opens _ v hn 0 x ?_
    rw [unmatched_append]
    simp [unmatched, hx]
  constructor
  · intro h
    obtain ⟨as, bs, hl, -⟩ := List.lookup_eq_some_iff.1 h
    have hpair : (x, y) ∈ pairs opens [] w := by rw [hl]; simp
    obtain ⟨hmem, hx⟩ := (opens_of_mem_pairs opens [] w x y hpair).resolve_left (by simp)
    obtain ⟨u, v, rfl⟩ := List.append_of_mem hmem
    rw [hopened u v rfl hx] at h
    obtain ⟨v, t, rfl, hy, hopen⟩ := (closing_eq_some_iff opens v 1 (Nat.le_refl 1) y).1 h
    refine ⟨u, v, t, by simp, hx, hy, ?_, ?_⟩
    · have := hopen.1
      omega
    · intro n
      have := hopen.2 n
      omega
  · rintro ⟨u, v, t, rfl, hx, hy, hbal, hmin⟩
    rw [hopened u (v ++ y :: t) (by simp) hx]
    refine (closing_eq_some_iff opens _ 1 (Nat.le_refl 1) y).2 ⟨v, t, rfl, hy, ?_, ?_⟩
    · omega
    · intro n
      have := hmin n
      omega

/-- The opens of a word that nothing in it closes, from left to right, are those left on the
stack. -/
theorem filter_unpaired (hn : w.Nodup) :
    w.filter (fun x => opens x && (partner opens w x).isNone) =
      (unmatched opens [] w).reverse := by
  have hmem : ∀ x ∈ w, (opens x && (partner opens w x).isNone) = true ↔
      x ∈ (unmatched opens [] w).reverse := by
    intro x hx
    rw [Bool.and_eq_true, Option.isNone_iff_eq_none, partner, List.lookup_eq_none_iff,
      List.mem_reverse]
    constructor
    · rintro ⟨hopens, hnone⟩
      refine (mem_unmatched_or_pairs opens [] w (.inr ⟨hx, hopens⟩)).resolve_right ?_
      rintro ⟨y, hy⟩
      simpa using hnone _ hy
    · intro hopen
      refine ⟨((opens_of_mem_unmatched opens [] w hopen).resolve_left List.not_mem_nil).2, ?_⟩
      rintro ⟨o, y⟩ hpair
      have hne : x ≠ o := by
        rintro rfl
        exact pairs_unmatched opens [] w hn x y hpair hopen
      simpa using hne
  exact filter_eq_of_sublist (reverse_unmatched_sublist opens [] w) hn _ hmem
end

end Highlighting.Brackets

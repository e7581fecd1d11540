import Mathlib.Data.List.Infix
import Mathlib.Data.List.TakeWhile
import Mathlib.Data.Nat.Find
import Highlighting.Proofs.Literals

/-!
# Ends that are escaped

A construct may end where a delimiter stands, unless an odd number of escapes in a row stands before
it.  Text before the place where the search begins does not count.  A delimiter that is escaped is
passed over as a whole, and so is an end that begins inside of it:

    k.findEnd p c = the leftmost end after c that does not begin inside of an escaped delimiter

Such an end overlaps the delimiter before it.  So the leftmost end of all is found in every text just
when the delimiter does not overlap itself                                       (findEnd_leftmost)
-/

namespace Highlighting

open Text (Cursor Ahead byteLength)

/-! ## Ends in a text -/

/-- Just so many escapes in a row stand before the place `n` characters into the text. -/
def EscapesBefore (e : Char) (text : List Char) (n count : Nat) : Prop :=
  ∃ front, text.take n = front ++ List.replicate count e ∧ front.getLast? ≠ some e

/-- The delimiter stands `n` characters into the text, behind an even number of escapes. -/
def EndsAt (d : List Char) (e : Char) (text : List Char) (n : Nat) : Prop :=
  d <+: text.drop n ∧ ∃ count, EscapesBefore e text n count ∧ count % 2 = 0

/-- The delimiter stands `n` characters into the text, behind an odd number of escapes. -/
def EscapedAt (d : List Char) (e : Char) (text : List Char) (n : Nat) : Prop :=
  d <+: text.drop n ∧ ∃ count, EscapesBefore e text n count ∧ count % 2 = 1

/-- The place lies inside of an escaped delimiter, not at its start. -/
def InEscaped (d : List Char) (e : Char) (text : List Char) (n : Nat) : Prop :=
  ∃ j, EscapedAt d e text j ∧ j < n ∧ n < j + d.length

/-- No part of the text is both its beginning and its end, but for nothing and all of it. -/
def Unbordered (d : List Char) : Prop :=
  ∀ b, b <+: d → b <:+ d → b = [] ∨ b = d

/-- The match is the delimiter at the leftmost of some places, counted in characters from `c` on; or
there is no match, and no such place. -/
def LeftmostAt (places : Nat → Prop) (d : List Char) (c : Cursor) : Option Match → Prop
  | none => ∀ n, ¬places n
  | some m => ∃ n, places n ∧ (∀ j, places j → n ≤ j) ∧
      m.start.offset = c.offset + byteLength (c.rest.take n) ∧
      m.stop.offset = m.start.offset + byteLength d

section
variable {d text : List Char} {e : Char} {n j : Nat}

theorem escapesBefore_iff {count : Nat} : EscapesBefore e text n count ↔
    ((text.take n).reverse.takeWhile (· == e)).length = count := by
  constructor
  · rintro ⟨front, htake, hlast⟩
    have hstop : front.reverse.takeWhile (· == e) = [] := by
      rw [List.getLast?_eq_head?_reverse] at hlast
      cases hfront : front.reverse with
      | nil => rfl
      | cons x xs =>
        rw [hfront, List.head?_cons] at hlast
        exact List.takeWhile_cons_of_neg (by simpa using hlast)
    rw [htake, List.reverse_append, List.reverse_replicate,
      List.takeWhile_append_of_pos (by simp), hstop]
    simp
  · intro hcount
    have hrun : (text.take n).reverse.takeWhile (· == e) = List.replicate count e :=
      List.eq_replicate_iff.2 ⟨hcount, fun x hx => by simpa using List.mem_takeWhile_imp hx⟩
    refine ⟨((text.take n).reverse.dropWhile (· == e)).reverse, ?_, ?_⟩
    · calc text.take n
        _ = ((text.take n).reverse.takeWhile (· == e) ++
              (text.take n).reverse.dropWhile (· == e)).reverse := by
          rw [List.takeWhile_append_dropWhile, List.reverse_reverse]
        _ = _ := by rw [List.reverse_append, hrun, List.reverse_replicate]
    · rw [List.getLast?_reverse]
      intro hhead
      have hnot := List.head?_dropWhile_not (· == e) (text.take n).reverse
      rw [hhead] at hnot
      simp at hnot

theorem exists_escapesBefore (e : Char) (text : List Char) (n : Nat) :
    ∃ count, EscapesBefore e text n count :=
  ⟨_, escapesBefore_iff.2 rfl⟩

theorem EscapesBefore.unique {i k : Nat} (hi : EscapesBefore e text n i)
    (hk : EscapesBefore e text n k) : i = k :=
  (escapesBefore_iff.1 hi).symm.trans (escapesBefore_iff.1 hk)

theorem EscapedAt.not_endsAt (h : EscapedAt d e text n) : ¬EndsAt d e text n := by
  obtain ⟨-, i, hi, hodd⟩ := h
  rintro ⟨-, k, hk, heven⟩
  have := hi.unique hk
  omega

/-- Wherever the delimiter stands is an end, or it is escaped. -/
theorem endsAt_or_escapedAt (e : Char) (h : d <+: text.drop n) :
    EndsAt d e text n ∨ EscapedAt d e text n := by
  obtain ⟨count, hcount⟩ := exists_escapesBefore e text n
  rcases Nat.mod_two_eq_zero_or_one count with heven | hodd
  · exact .inl ⟨h, count, hcount, heven⟩
  · exact .inr ⟨h, count, hcount, hodd⟩

/-- No escape stands before a place inside of a delimiter. -/
theorem escapesBefore_inside (he : e ∉ d) (hj : d <+: text.drop j) (hlt : j < n)
    (hn : n < j + d.length) : EscapesBefore e text n 0 := by
  obtain ⟨t, ht⟩ := hj
  have htake : text.take n = text.take j ++ d.take (n - j) := by
    rw [← Nat.add_sub_cancel' (Nat.le_of_lt hlt), List.take_add, ← ht,
      List.take_append_of_le_length (by omega), Nat.add_sub_cancel_left]
  refine ⟨text.take n, by simp, ?_⟩
  rw [htake]
  intro hlast
  have hne : d.take (n - j) ≠ [] := by
    rw [← List.length_pos_iff, List.length_take]
    omega
  rw [List.getLast?_append_of_ne_nil _ hne] at hlast
  exact he (List.mem_of_mem_take (List.mem_of_getLast? hlast))

/-- A delimiter that begins inside of another is an end. -/
theorem endsAt_inside (he : e ∉ d) (hj : d <+: text.drop j) (hlt : j < n) (hn : n < j + d.length)
    (h : d <+: text.drop n) : EndsAt d e text n :=
  ⟨h, 0, escapesBefore_inside he hj hlt hn, rfl⟩

end

/-! ## The leftmost end -/

namespace Construct

variable {k : Construct} {p : Pattern} {d : List Char} {e : Char} {o c : Cursor} {n : Nat}

theorem isEscaped_skip (hn : n ≤ o.rest.length) : isEscaped (some e) o (o.skip n) = true ↔
    ∃ count, EscapesBefore e o.rest n count ∧ count % 2 = 1 := by
  simp only [isEscaped, o.upTo_skip hn, beq_iff_eq]
  constructor
  · exact fun hodd => ⟨_, escapesBefore_iff.2 rfl, hodd⟩
  · rintro ⟨count, hcount, hodd⟩
    rw [escapesBefore_iff.1 hcount, hodd]

/-- A search that has come to a place, past all escaped delimiters that begin before it, and past no
end outside of them, finds the leftmost of these ends. -/
theorem findUnescaped_leftmost (hd : d ≠ []) (he : e ∉ d) (hp : p.IsLiteral d)
    (hn : n ≤ o.rest.length)
    (hescaped : ∀ j, EscapedAt d e o.rest j → j < n → j + d.length ≤ n)
    (hends : ∀ j, EndsAt d e o.rest j → ¬InEscaped d e o.rest j → n ≤ j) :
    LeftmostAt (fun j => EndsAt d e o.rest j ∧ ¬InEscaped d e o.rest j) d o
      (findUnescaped (some e) p o (o.skip n)) := by
  have hpos := List.length_pos_iff.2 hd
  generalize hc : o.skip n = c
  fun_induction findUnescaped (some e) p o c generalizing n with
  | case1 c hnone =>
    rintro j ⟨hj, hout⟩
    exact hp.none_skip (hc ▸ hnone) (hends j hj hout) hj.1
  | case2 c m hm hesc hnone =>
    rw [afterMatch, if_pos (hp.filled hd hm)] at hnone
    cases hnone
  | case3 c m hm hesc next hnext ih =>
    obtain ⟨i, hni, hi, hstart, hstop, hpre, hfirst⟩ := hp.first_skip hn (hc ▸ hm)
    rw [afterMatch, if_pos (hp.filled hd hm), hstop] at hnext
    rw [hstart, isEscaped_skip (by omega)] at hesc
    have hfound : EscapedAt d e o.rest i := ⟨hpre, hesc⟩
    -- The search goes on behind the escaped delimiter: none that is escaped begins inside of it,
    -- and an end that does is passed over.
    refine ih hi (fun j hj hlt => ?_) (fun j hj hout => ?_) (Option.some.inj hnext)
    · rcases Nat.lt_or_ge j n with hjn | hnj
      · have := hescaped j hj hjn
        omega
      · have hij := hfirst j hnj hj.1
        rcases Nat.eq_or_lt_of_le hij with rfl | hij
        · exact Nat.le_refl _
        · exact absurd (endsAt_inside he hpre hij hlt hj.1) hj.not_endsAt
    · have hij := hfirst j (hends j hj hout) hj.1
      refine Nat.le_of_not_lt fun hlt => ?_
      rcases Nat.eq_or_lt_of_le hij with rfl | hij
      · exact hfound.not_endsAt hj
      · exact hout ⟨i, hfound, hij, hlt⟩
  | case4 c m hm hesc =>
    obtain ⟨i, hni, hi, hstart, hstop, hpre, hfirst⟩ := hp.first_skip hn (hc ▸ hm)
    rw [hstart, isEscaped_skip (by omega)] at hesc
    have hend : EndsAt d e o.rest i :=
      (endsAt_or_escapedAt e hpre).resolve_right fun h => hesc h.2
    refine ⟨i, ⟨hend, ?_⟩, fun j hj => ?_, ?_, ?_⟩
    · rintro ⟨j, hj, hji, hij⟩
      rcases Nat.lt_or_ge j n with hjn | hnj
      · have := hescaped j hj hjn
        omega
      · have := hfirst j hnj hj.1
        omega
    · exact hfirst j (hends j hj.1 hj.2) hj.1.1
    · rw [hstart, Cursor.skip_offset]
    · rw [hstart, hstop, ← Cursor.skip_add, Cursor.skip_offset, Cursor.skip_rest,
        ← List.prefix_iff_eq_take.1 hpre]

end Construct

/-- Of a smaller set of places, what is leftmost is so of the larger one just when the leftmost place
of the larger one is in the smaller. -/
theorem LeftmostAt.iff_of_imp {places others : Nat → Prop} {d : List Char} {c : Cursor}
    {found : Option Match} (h : LeftmostAt places d c found) (hsub : ∀ n, places n → others n)
    (hle : ∀ n, others n → n ≤ c.rest.length) :
    LeftmostAt others d c found ↔ ∀ n, others n → (∀ j, others j → n ≤ j) → places n := by
  classical
  cases found with
  | none =>
    constructor
    · exact fun hnone n hn => absurd hn (hnone n)
    · intro hleft n hn
      have hsome : ∃ n, others n := ⟨n, hn⟩
      exact h _ (hleft _ (Nat.find_spec hsome) fun j hj => Nat.find_min' hsome hj)
  | some m =>
    obtain ⟨n, hn, hmin, hstart, hstop⟩ := h
    constructor
    · rintro ⟨i, hi, hfirst, hoffset, -⟩ j hj hjfirst
      obtain rfl : j = i := Nat.le_antisymm (hjfirst i hi) (hfirst j hj)
      rw [← c.skip_offset] at hstart hoffset
      have hsame := hstart.symm.trans hoffset
      have hnj := c.le_of_skip_offset_le (hle n (hsub n hn)) (Nat.le_of_eq hsame)
      obtain rfl : n = j := Nat.le_antisymm hnj (hfirst n (hsub n hn))
      exact hn
    · intro hleft
      refine ⟨n, hsub n hn, fun j hj => ?_, hstart, hstop⟩
      have hsome : ∃ n, others n := ⟨j, hj⟩
      have hfirst := hleft _ (Nat.find_spec hsome) fun i hi => Nat.find_min' hsome hi
      exact (hmin _ hfirst).trans (Nat.find_min' hsome hj)

section
variable {d : List Char} {e : Char}

/-- In a delimiter that does not overlap itself, no other begins. -/
theorem Unbordered.not_inEscaped {text : List Char} {n : Nat} (hd : Unbordered d)
    (hn : d <+: text.drop n) : ¬InEscaped d e text n := by
  rintro ⟨j, ⟨⟨t, ht⟩, -⟩, hjn, hlt⟩
  have hdrop : text.drop n = d.drop (n - j) ++ t := by
    rw [← Nat.add_sub_cancel' (Nat.le_of_lt hjn), ← List.drop_drop, ← ht,
      List.drop_append_of_le_length (by omega), Nat.add_sub_cancel_left]
  rw [hdrop] at hn
  have hpre : d.drop (n - j) <+: d :=
    List.prefix_of_prefix_length_le (List.prefix_append _ t) hn (by simp)
  rcases hd _ hpre (List.drop_suffix _ d) with hnil | hall
  · rw [List.drop_eq_nil_iff] at hnil
    omega
  · have := congrArg List.length hall
    rw [List.length_drop] at this
    omega

/-- In the text that is made of an escape and two delimiters which overlap, the leftmost end begins
inside of an escaped delimiter. -/
theorem exists_leftmost_inEscaped (he : e ∉ d) (hd : ¬Unbordered d) :
    ∃ text n, EndsAt d e text n ∧ (∀ j, EndsAt d e text j → n ≤ j) ∧ InEscaped d e text n := by
  simp only [Unbordered, not_forall, not_or] at hd
  obtain ⟨b, ⟨t, hbt⟩, ⟨a, hab⟩, hnil, hne⟩ := hd
  classical
  have hb := List.length_pos_iff.2 hnil
  have ha : 0 < a.length := by
    refine List.length_pos_iff.2 fun h => hne ?_
    rw [← hab, h, List.nil_append]
  have hlength := congrArg List.length hab
  rw [List.length_append] at hlength
  have hescaped : EscapedAt d e (e :: (d ++ t)) 1 :=
    ⟨List.prefix_append d t, 1, ⟨[], by simp, by simp⟩, rfl⟩
  have hsecond : d <+: (e :: (d ++ t)).drop (1 + a.length) := by
    rw [Nat.add_comm, List.drop_succ_cons, ← hab, List.append_assoc, List.drop_left, hbt]
    exact hab ▸ List.prefix_rfl
  have hend := endsAt_inside he hescaped.1 (by omega) (by omega) hsecond
  have hsome : ∃ n, EndsAt d e (e :: (d ++ t)) n := ⟨_, hend⟩
  refine ⟨e :: (d ++ t), Nat.find hsome, Nat.find_spec hsome, fun j hj => Nat.find_min' hsome hj,
    1, hescaped, ?_, ?_⟩
  · refine Nat.lt_of_not_le fun hle => ?_
    have hspec := Nat.find_spec hsome
    rcases Nat.le_one_iff_eq_zero_or_eq_one.1 hle with hzero | hone
    · rw [hzero] at hspec
      obtain ⟨⟨u, hu⟩, -⟩ := hspec
      cases hcs : d with
      | nil => rw [hcs, List.length_nil] at hlength; omega
      | cons x xs =>
        rw [hcs, List.drop_zero, List.cons_append] at hu
        exact he (by rw [hcs, (List.cons.inj hu).1]; exact .head _)
    · rw [hone] at hspec
      exact hescaped.not_endsAt hspec
  · have := Nat.find_min' hsome hend
    omega

end

/-- **The end of a construct.**  For a delimiter that is not empty and in which the escape does not
occur: from every place on, what is found is the leftmost end that does not begin inside of an
escaped delimiter.  It is the leftmost end of all just when that does not begin there either, and it
is so in every text just when the delimiter does not overlap itself. -/
theorem findEnd_leftmost (k : Construct) (p : Pattern) (d : List Char) (e : Char)
    (hk : k.escape = some e) (hd : d ≠ []) (he : e ∉ d) (hp : p.IsLiteral d) :
    (∀ c, LeftmostAt (fun n => EndsAt d e c.rest n ∧ ¬InEscaped d e c.rest n) d c
      (k.findEnd p c)) ∧
    (∀ c, LeftmostAt (EndsAt d e c.rest) d c (k.findEnd p c) ↔
      ∀ n, EndsAt d e c.rest n → (∀ j, EndsAt d e c.rest j → n ≤ j) → ¬InEscaped d e c.rest n) ∧
    ((∀ c, LeftmostAt (EndsAt d e c.rest) d c (k.findEnd p c)) ↔ Unbordered d) := by
  have hfound (c : Cursor) : LeftmostAt (fun n => EndsAt d e c.rest n ∧ ¬InEscaped d e c.rest n)
      d c (k.findEnd p c) := by
    rw [Construct.findEnd, hk]
    exact Construct.findUnescaped_leftmost (n := 0) hd he hp (Nat.zero_le _)
      (fun j _ hj => absurd hj (Nat.not_lt_zero j)) (fun j _ _ => Nat.zero_le j)
  have hall (c : Cursor) : LeftmostAt (EndsAt d e c.rest) d c (k.findEnd p c) ↔
      ∀ n, EndsAt d e c.rest n → (∀ j, EndsAt d e c.rest j → n ≤ j) →
        ¬InEscaped d e c.rest n := by
    rw [(hfound c).iff_of_imp (fun n hn => hn.1) fun n hn => ?_]
    · exact forall_congr' fun n => forall_congr' fun hn => forall_congr' fun _ =>
        and_iff_right hn
    · refine Nat.le_of_not_lt fun hlt => hd (List.prefix_nil.1 ?_)
      exact List.drop_eq_nil_of_le (Nat.le_of_lt hlt) ▸ hn.1
  refine ⟨hfound, hall, fun h => ?_, fun h c => (hall c).2 fun n hn _ => h.not_inEscaped hn.1⟩
  by_contra hborder
  obtain ⟨text, n, hn, hfirst, hin⟩ := exists_leftmost_inEscaped he hborder
  exact (hall (.ofChars text)).1 (h _) n hn hfirst hin

/-- A construct for examples: text in triple quotes. -/
def quotes : Construct :=
  let quote := Expr.one (.single '"')
  let triple : Pattern := ⟨"\"\"\"", .seq quote (.seq quote quote)⟩
  ⟨"quotes", triple, .fixed triple, .string, some '\\', 1, 0⟩

/-- The start of a text for examples. -/
def fourQuotes : Cursor :=
  .ofString "a\\\"\"\"\""

/-- Of four quotes behind an escape, the last three are an end.  It begins inside of the escaped
delimiter, and is not found. -/
theorem findEnd_leftmost_quotes :
    Pattern.compile "\"\"\"" = .ok quotes.start ∧
    quotes.findEnd quotes.start fourQuotes = none ∧
    EndsAt ['"', '"', '"'] '\\' fourQuotes.rest 3 ∧
    InEscaped ['"', '"', '"'] '\\' fourQuotes.rest 3 ∧
    ¬LeftmostAt (EndsAt ['"', '"', '"'] '\\' fourQuotes.rest) ['"', '"', '"'] fourQuotes
      (quotes.findEnd quotes.start fourQuotes) := by
  have hliteral : quotes.start.IsLiteral ['"', '"', '"'] :=
    Expr.isLiteral_of_literal? _ _ rfl _
  have hnone : quotes.findEnd quotes.start fourQuotes = none := by decide +kernel
  have hend : EndsAt ['"', '"', '"'] '\\' fourQuotes.rest 3 :=
    endsAt_inside (j := 2) (by decide) (by decide) (by decide) (by decide) (by decide)
  obtain ⟨hfound, -, -⟩ := findEnd_leftmost quotes quotes.start _ '\\' rfl (by decide)
    (by decide) hliteral
  have hplace := hfound fourQuotes
  rw [hnone] at hplace
  refine ⟨rfl, hnone, hend, ?_, fun h => ?_⟩
  · by_contra hout
    exact hplace 3 ⟨hend, hout⟩
  · rw [hnone] at h
    exact h 3 hend

end Highlighting

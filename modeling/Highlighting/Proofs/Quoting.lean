import Mathlib.Algebra.GroupWithZero.Nat
import Highlighting.Language.Rule
import Highlighting.Proofs.Matching

/-!
# Text in a pattern

A text with a backslash before every character that has a meaning is read as these characters, one
after the other, whatever has been read before it and whatever comes after it:

    run (cs.length + n) d (quoted cs ++ rest)  =  run n d' rest, where d' is d with the
                                                  characters of cs behind it      (run_quoted)

By itself it is a pattern that is literal for the text (isLiteral_of_compile).  With white space
around it, between the start and the end of a line, it is a pattern for the lines on which the text
stands alone (eq_ofAlone_of_compile, find_ofAlone, standsAlone_of_find).  A text can be too long for
either: the pattern takes a state for each of its bytes (compile_quoted, compile_alone).
-/

namespace Highlighting

open Text (Cursor)
open Highlighting.Expr (singles sequence)

namespace Pattern

/-! ## Reading a quoted text -/

/-- The characters with a backslash before each that has a meaning. -/
def quoted (cs : List Char) : List Char :=
  cs.flatMap fun c => if isMeta c then ['\\', c] else [c]

theorem quoted_cons (c : Char) (cs : List Char) :
    quoted (c :: cs) = (if isMeta c then ['\\', c] else [c]) ++ quoted cs :=
  List.flatMap_cons

theorem toList_escaped (s : String) : (escaped s).toList = quoted s.toList :=
  String.toList_ofList

theorem length_le_quoted (cs : List Char) : cs.length ≤ (quoted cs).length := by
  induction cs with
  | nil => exact Nat.le_refl _
  | cons c cs ih =>
    rw [quoted_cons, List.length_append, List.length_cons]
    split <;> simp only [List.length_cons, List.length_nil] <;> omega

/-- It never begins with a question mark, which would belong to what is before it. -/
theorem head?_quoted_ne (cs rest : List Char) (hrest : rest.head? ≠ some '?') :
    (quoted cs ++ rest).head? ≠ some '?' := by
  cases cs with
  | nil => exact hrest
  | cons c cs =>
    rw [quoted_cons]
    split
    · exact fun h => absurd (Option.some.inj h) (by decide)
    · next hc =>
      intro h
      obtain rfl : c = '?' := Option.some.inj h
      exact hc (by decide)

namespace Draft

variable (d : Draft)

/-- What has no meaning stands for itself, -/
theorem step_plain {c : Char} (hc : isMeta c = false) (cs : List Char) :
    d.step c cs = .ok (d.pushChar c, cs) := by
  unfold step
  split <;> first | rfl | exact absurd hc (by decide)

/-- and so does what has one, after a backslash. -/
theorem step_meta {c : Char} (hc : isMeta c = true) (cs : List Char) :
    d.step '\\' (c :: cs) = .ok (d.pushChar c, cs) := by
  simp only [isMeta, List.mem_cons, List.not_mem_nil, or_false, decide_eq_true_eq] at hc
  rcases hc with rfl | rfl | rfl | rfl | rfl | rfl | rfl | rfl | rfl | rfl | rfl | rfl | rfl | rfl |
    rfl | rfl | rfl | rfl <;> rfl

theorem run_step {c : Char} {cs rest : List Char} {e : Draft} (h : d.step c cs = .ok (e, rest))
    (n : Nat) : run (n + 1) d (c :: cs) = run n e rest := by
  rw [run, h]
  rfl

theorem run_quoted (cs rest : List Char) (n : Nat) :
    run (cs.length + n) d (quoted cs ++ rest) = run n (cs.foldl pushChar d) rest := by
  induction cs generalizing d with
  | nil => rw [List.length_nil, Nat.zero_add]; rfl
  | cons c cs ih =>
    rw [quoted_cons, List.append_assoc, List.length_cons, Nat.add_right_comm,
      List.foldl_cons, ← ih]
    split
    · next hc => exact run_step d (step_meta d hc _) _
    · next hc => exact run_step d (step_plain d (by simpa using hc) _) _

/-- The draft with more items. -/
def pushAll (es : List Expr) : Draft :=
  { d with level := { d.level with items := (es.map some).reverse ++ d.level.items } }

theorem foldl_pushChar (hd : d.flags = .cleared) (cs : List Char) :
    cs.foldl pushChar d = d.pushAll (singles cs) := by
  induction cs generalizing d with
  | nil => rfl
  | cons c cs ih =>
    have hpush : d.pushChar c = d.pushAll [.one (.single c)] := by
      rw [pushChar, hd]
      rfl
    rw [List.foldl_cons, ih _ (by rw [hpush]; exact hd), hpush]
    simp [pushAll, singles]

theorem run_end (es : List Expr) (n : Nat) :
    run n (start.pushAll es) [] = .ok (sequence es) := by
  simp [run, start, pushAll, Level.fresh, Level.expr, Level.branch, Expr.choice,
    List.filterMap_map]

end Draft

/-! ## Size -/

/-- What stands one after the other takes the states of each. -/
theorem weight_sequence (es : List Expr) : (es.map weight).sum ≤ weight (sequence es) ∧
    weight (sequence es) ≤ (es.map weight).sum + 1 := by
  fun_induction sequence es with
  | case1 => exact ⟨Nat.zero_le _, Nat.le_refl _⟩
  | case2 e => simp
  | case3 e es _ ih =>
    rw [weight, List.map_cons, List.sum_cons]
    omega

@[simp] theorem sum_weight_singles (cs : List Char) :
    ((singles cs).map weight).sum = Text.byteLength cs := by
  induction cs with
  | nil => rfl
  | cons c cs ih =>
    rw [singles] at ih ⊢
    simp only [List.map_cons, List.sum_cons, ih]
    rfl

/-- A text that is read to its end is a pattern, unless that takes too many states. -/
theorem compile_of_run {source : String} {cs : List Char} {e : Expr} (hcs : source.toList = cs)
    (hrun : Draft.run cs.length .start cs = .ok e) :
    compile source = if weight e ≤ weightLimit then .ok ⟨source, e⟩ else .error .tooLarge := by
  subst hcs
  unfold compile parse
  simp only [hrun]
  show (if weight e ≤ weightLimit then _ else _) >>= _ = _
  split <;> rfl

theorem exists_compile {source : String} {cs : List Char} (hcs : source.toList = cs)
    (h : ((Draft.run cs.length .start cs).toOption.any fun e => weight e ≤ weightLimit) = true) :
    ∃ p, compile source = .ok p := by
  cases hrun : Draft.run cs.length .start cs with
  | error flaw => rw [hrun] at h; cases h
  | ok e =>
    have hle : weight e ≤ weightLimit := by simpa [hrun, Except.toOption] using h
    exact ⟨_, (compile_of_run hcs hrun).trans (if_pos hle)⟩

/-! ## Patterns around a text -/

/-- A quoted text is a pattern, unless the text is too long. -/
theorem compile_quoted (cs : List Char) : compile (String.ofList (quoted cs)) =
    if weight (sequence (singles cs)) ≤ weightLimit then
      .ok ⟨String.ofList (quoted cs), sequence (singles cs)⟩ else .error .tooLarge := by
  refine compile_of_run String.toList_ofList ?_
  obtain ⟨n, hn⟩ := Nat.exists_eq_add_of_le (length_le_quoted cs)
  have hrun := Draft.run_quoted .start cs [] n
  rw [List.append_nil, ← hn, Draft.foldl_pushChar _ rfl, Draft.run_end] at hrun
  exact hrun

theorem exists_compile_quoted {cs : List Char} (h : Text.byteLength cs < weightLimit) :
    ∃ p, compile (String.ofList (quoted cs)) = .ok p := by
  have hweight := (weight_sequence (singles cs)).2
  rw [sum_weight_singles] at hweight
  exact ⟨_, (compile_quoted cs).trans (if_pos (Nat.le_trans hweight h))⟩

theorem compile_quoted_tooLarge {cs : List Char} (h : weightLimit < Text.byteLength cs) :
    compile (String.ofList (quoted cs)) = .error .tooLarge := by
  have hweight := (weight_sequence (singles cs)).1
  rw [sum_weight_singles] at hweight
  exact (compile_quoted cs).trans (if_neg (Nat.not_le.2 (Nat.lt_of_lt_of_le h hweight)))

/-- As a pattern it is literal for the text. -/
theorem isLiteral_of_compile {cs : List Char} {p : Pattern}
    (h : compile (String.ofList (quoted cs)) = .ok p) : p.IsLiteral cs := by
  rw [compile_quoted] at h
  split at h
  · obtain rfl := Except.ok.inj h
    exact Expr.isLiteral_of_literal? _ _ (Expr.literal?_singles cs) _
  · cases h

/-- White space, as much as there is. -/
def blanks : Expr :=
  .rep 0 none true (.one .blank)

/-- The expression for a text that stands alone. -/
def aloneExpr (cs : List Char) : Expr :=
  sequence ([.look .textStart, blanks] ++ singles cs ++ [blanks, .look .textEnd])

/-- The source of a pattern for a text that stands alone. -/
def alone (cs : List Char) : List Char :=
  ['^', '\\', 's', '*'] ++ quoted cs ++ ['\\', 's', '*', '$']

theorem length_alone (cs : List Char) : (alone cs).length = (quoted cs).length + 8 := by
  simp [alone]

/-- A pattern for a text that stands alone. -/
def ofAlone (cs : List Char) : Pattern :=
  ⟨String.ofList (alone cs), aloneExpr cs⟩

namespace Draft

variable (d : Draft)

theorem pushAll_pushAll (es fs : List Expr) :
    (d.pushAll es).pushAll fs = d.pushAll (es ++ fs) := by
  simp [pushAll]

/-- What is repeated is repeated as often as possible, unless a question mark follows. -/
theorem repetition_greedy (least : Nat) (most : Option Nat) {rest : List Char}
    (hrest : rest.head? ≠ some '?') : d.repetition least most rest =
      d.level.repeatLast least most (false == d.flags.swapGreed) >>= fun level =>
        .ok ({ d with level := level }, rest) := by
  unfold repetition
  split
  next hread =>
    split at hread
    · next cs => exact absurd rfl hrest
    · obtain ⟨rfl, rfl⟩ := Prod.mk.inj hread
      rfl

theorem run_blanks (hd : d.flags = .cleared) {rest : List Char} (hrest : rest.head? ≠ some '?')
    (n : Nat) : run (n + 2) d ('\\' :: 's' :: '*' :: rest) = run n (d.pushAll [blanks]) rest := by
  have hblank : d.step '\\' ('s' :: '*' :: rest) = .ok (d.pushSet .blank, '*' :: rest) := rfl
  have hstar : (d.pushSet .blank).step '*' rest = .ok (d.pushAll [blanks], rest) := by
    obtain ⟨flags, level, outer, captured, names⟩ := d
    obtain rfl : flags = .cleared := hd
    exact repetition_greedy _ 0 none hrest
  rw [run_step _ hblank, run_step _ hstar]

theorem run_alone (cs : List Char) :
    run (alone cs).length .start (alone cs) = .ok (aloneExpr cs) := by
  have hlength := length_alone cs
  obtain ⟨n, hn⟩ := Nat.exists_eq_add_of_le (length_le_quoted cs)
  have hfuel : (alone cs).length = cs.length + (n + 3 + 2) + 2 + 1 := by omega
  have hback : ['\\', 's', '*', '$'].head? ≠ some '?' := by decide
  have hstart (rest : List Char) : start.step '^' rest =
      .ok (start.pushAll [.look .textStart], rest) := rfl
  have hend (d : Draft) (hd : d.flags = .cleared) :
      d.step '$' [] = .ok (d.pushAll [.look .textEnd], []) := by
    obtain ⟨flags, level, outer, captured, names⟩ := d
    obtain rfl : flags = .cleared := hd
    rfl
  rw [hfuel, alone, List.append_assoc]
  refine (run_step _ (hstart _) _).trans ?_
  refine (run_blanks _ rfl (head?_quoted_ne cs _ hback) _).trans ?_
  rw [run_quoted, foldl_pushChar _ rfl, run_blanks _ rfl (by simp), run_step _ (hend _ rfl)]
  simp only [pushAll_pushAll, run_end, aloneExpr, List.append_assoc]
  rfl

end Draft

theorem weight_aloneExpr (cs : List Char) : Text.byteLength cs ≤ weight (aloneExpr cs) ∧
    weight (aloneExpr cs) ≤ Text.byteLength cs + 85 := by
  have hweight := weight_sequence
    ([.look .textStart, blanks] ++ singles cs ++ [blanks, .look .textEnd])
  have hblanks : weight blanks = 41 := rfl
  have hlook (l : Look) : weight (.look l) = 1 := rfl
  simp only [List.map_append, List.sum_append, sum_weight_singles, List.map_cons, List.map_nil,
    List.sum_cons, List.sum_nil, hblanks, hlook] at hweight
  rw [aloneExpr]
  omega

/-- A text that stands alone has a pattern, unless it is too long. -/
theorem compile_alone (cs : List Char) : compile (String.ofList (alone cs)) =
    if weight (aloneExpr cs) ≤ weightLimit then .ok (ofAlone cs) else .error .tooLarge :=
  compile_of_run String.toList_ofList (Draft.run_alone cs)

theorem compile_alone_of_le {cs : List Char} (h : Text.byteLength cs + 85 ≤ weightLimit) :
    compile (String.ofList (alone cs)) = .ok (ofAlone cs) :=
  (compile_alone cs).trans (if_pos (Nat.le_trans (weight_aloneExpr cs).2 h))

theorem compile_alone_tooLarge {cs : List Char} (h : weightLimit < Text.byteLength cs) :
    compile (String.ofList (alone cs)) = .error .tooLarge :=
  (compile_alone cs).trans (if_neg (Nat.not_le.2 (Nat.lt_of_lt_of_le h (weight_aloneExpr cs).1)))

theorem eq_ofAlone_of_compile {cs : List Char} {p : Pattern}
    (h : compile (String.ofList (alone cs)) = .ok p) : p = ofAlone cs := by
  rw [compile_alone] at h
  split at h
  · exact (Except.ok.inj h).symm
  · cases h

/-- The text has nothing but white space around it. -/
def StandsAlone (cs text : List Char) : Prop :=
  ∃ front back, text = front ++ cs ++ back ∧ (∀ x ∈ front, Unicode.isBlank x = true) ∧
    ∀ x ∈ back, Unicode.isBlank x = true

theorem standsAlone_iff {cs text : List Char} : StandsAlone cs text ↔
    ((List.range (text.length + 1)).any fun n =>
      (text.take n).all Unicode.isBlank && cs.isPrefixOf (text.drop n) &&
        ((text.drop n).drop cs.length).all Unicode.isBlank) = true := by
  simp only [List.any_eq_true, List.mem_range, Bool.and_eq_true, List.all_eq_true,
    List.isPrefixOf_iff_prefix]
  constructor
  · rintro ⟨front, back, rfl, hfront, hback⟩
    rw [List.append_assoc]
    refine ⟨front.length, ?_, ⟨?_, ?_⟩, ?_⟩
    · rw [List.length_append]
      omega
    · rwa [List.take_left]
    · rw [List.drop_left]
      exact List.prefix_append cs back
    · rwa [List.drop_left, List.drop_left]
  · rintro ⟨n, -, ⟨hfront, back, hback⟩, hrest⟩
    rw [← hback, List.drop_left] at hrest
    refine ⟨text.take n, back, ?_, hfront, hrest⟩
    rw [List.append_assoc, hback, List.take_append_drop]

instance (cs text : List Char) : Decidable (StandsAlone cs text) :=
  decidable_of_iff' _ standsAlone_iff

theorem aloneExpr_eq (cs : List Char) : aloneExpr cs = .seq (.look .textStart)
    (.seq blanks (sequence (singles cs ++ [blanks, .look .textEnd]))) := by
  rw [aloneExpr, List.append_assoc, List.cons_append, List.cons_append, List.nil_append,
    Expr.sequence_cons _ (List.cons_ne_nil _ _), Expr.sequence_cons _ (by simp)]

/-- White space is taken as far as it goes. -/
theorem head?_ends_blanks {r : Reach} {front back : List Char} (h : r.here.rest = front ++ back)
    (hfront : ∀ x ∈ front, Unicode.isBlank x = true)
    (hback : ∀ x, back.head? = some x → Unicode.isBlank x = false) :
    (Expr.ends blanks r).head? = some (r.skip front.length) := by
  have hstretch : CharSet.blank.stretch r.here.rest = front.length :=
    h ▸ CharSet.stretch_append _ hfront hback
  rw [← hstretch]
  exact Expr.head?_ends_many (Nat.zero_le _)

theorem exists_of_mem_ends_blanks {r s : Reach} (hs : s ∈ Expr.ends blanks r) :
    ∃ n, s = r.skip n ∧ ∀ x ∈ r.here.rest.take n, Unicode.isBlank x = true := by
  obtain ⟨n, hn, rfl⟩ := Expr.exists_of_mem_ends_many hs
  exact ⟨n, rfl, CharSet.blank.mem_of_mem_take_stretch hn⟩

/-- Where the text stands alone, all of the line is matched. -/
theorem find_ofAlone {x : Char} {xs : List Char} {c : Cursor} (hx : Unicode.isBlank x = false)
    (hc : c.before = none) (h : StandsAlone (x :: xs) c.rest) :
    ∃ m, (ofAlone (x :: xs)).find c = some m ∧ m.start = c ∧
      m.stop = c.skip c.rest.length := by
  obtain ⟨front, back, htext, hfront, hback⟩ := h
  let r : Reach := ⟨c, []⟩
  have hr : r.here.rest = front ++ (x :: xs ++ back) := by rw [← List.append_assoc]; exact htext
  have hs : (r.skip front.length).here.rest = x :: xs ++ back := by
    rw [Reach.skip_here, Cursor.skip_rest, hr, List.drop_left]
  have ht : ((r.skip front.length).skip (x :: xs).length).here.rest = back ++ [] := by
    rw [Reach.skip_here, Cursor.skip_rest, hs, List.drop_left, List.append_nil]
  have hends : (Expr.ends (ofAlone (x :: xs)).expr r).head? =
      some (((r.skip front.length).skip (x :: xs).length).skip back.length) := by
    rw [ofAlone, aloneExpr_eq]
    refine Expr.head?_ends_seq (Expr.head?_ends_look (by simp [r, Look.holds, hc])) ?_
    refine Expr.head?_ends_seq (head?_ends_blanks hr hfront ?_) ?_
    · rintro y hy
      obtain rfl : x = y := Option.some.inj hy
      exact hx
    refine Expr.head?_ends_singles (by simp) _ (hs ▸ List.prefix_append _ _) ?_
    refine Expr.head?_ends_seq (head?_ends_blanks ht hback (by simp)) (Expr.head?_ends_look ?_)
    rw [Look.holds, Reach.skip_here, Cursor.skip_rest, ht, List.append_nil, List.drop_length]
    rfl
  refine ⟨_, find_of_head hends, rfl, ?_⟩
  simp only [Reach.skip_skip, Reach.skip_here, htext, List.length_append]
  rfl

/-- What is matched is a line on which the text stands alone. -/
theorem standsAlone_of_find {cs : List Char} {c : Cursor} {m : Match}
    (h : (ofAlone cs).find c = some m) : c.before = none ∧ StandsAlone cs c.rest := by
  rw [find, ofAlone, aloneExpr_eq, Expr.findFrom_textStart] at h
  obtain ⟨s, hs, -⟩ := Option.map_eq_some_iff.1 h
  obtain ⟨r, hr, hs⟩ := Expr.exists_of_mem_ends_seq (List.mem_of_mem_head? hs)
  obtain ⟨hstart, rfl⟩ := Expr.of_mem_ends_look hr
  obtain ⟨t, ht, hs⟩ := Expr.exists_of_mem_ends_seq hs
  obtain ⟨n, rfl, hfront⟩ := exists_of_mem_ends_blanks ht
  obtain ⟨hcs, hs⟩ := Expr.of_mem_ends_singles (by simp) _ hs
  obtain ⟨u, hu, hs⟩ := Expr.exists_of_mem_ends_seq hs
  obtain ⟨k, rfl, hback⟩ := exists_of_mem_ends_blanks hu
  obtain ⟨hend, -⟩ := Expr.of_mem_ends_look hs
  simp only [Reach.skip_here, Cursor.skip_rest, Look.holds, List.isEmpty_iff] at hcs hback hend
  obtain ⟨back, hrest⟩ := hcs
  rw [← hrest, List.drop_left] at hback hend
  refine ⟨by simpa [Look.holds] using hstart, c.rest.take n, back, ?_, hfront, ?_⟩
  · rw [List.append_assoc, hrest, List.take_append_drop]
  · rwa [List.take_of_length_le (List.drop_eq_nil_iff.1 hend)] at hback

end Pattern

end Highlighting

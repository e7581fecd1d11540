import Highlighting.Proofs.Edits

/-!
# What a transaction leaves alone

The lines that a transaction may have changed lie in its window.  Before the window, and after it,
stand lines that the text had when the transaction was opened:

    text at the start  =  lines before the window ++ lines that went ++ lines after the window

An edit is a splice, and a splice makes the window reach over what it replaces, so it keeps this
(confines_spliced); so does every edit (confines_edit), and every run of edits
(confines_edited).
-/

namespace Highlighting.TextStore

/-- An edit, or the start or end of a transaction. -/
inductive Edit
  | insert (n col : Nat) (s : String)
  | remove (n start stop : Nat)
  | wrap (n col : Nat)
  | unwrap (n : Nat)
  | start
  | finish
  deriving Repr, DecidableEq

/-- The store after an edit; a refused one leaves it as it was. -/
def edit (t : TextStore) : Edit → TextStore
  | .insert n col s => (t.insert n col s).toOption.getD t
  | .remove n start stop => ((t.remove n start stop).map (·.2)).toOption.getD t
  | .wrap n col => (t.wrap n col).toOption.getD t
  | .unwrap n => (t.unwrap n).toOption.getD t
  | .start => t.start.2
  | .finish => t.finish.2

/-- The store after some edits. -/
def edited (t : TextStore) (edits : List Edit) : TextStore :=
  edits.foldl edit t

/-- The texts of the lines, in order. -/
def texts (t : TextStore) : List String :=
  t.lineList.map (·.text)

@[simp] theorem texts_length (t : TextStore) : t.texts.length = t.lines.size := by
  simp [texts]

/-! ## The window -/

/-- The window holds all that has become of a text: outside of it stand lines that were there, and
no window means that nothing has changed. -/
structure Confines (original : List String) (t : TextStore) : Prop where
  unchanged : t.changed = false → t.first = none ∧ t.last = none ∧ t.texts = original
  changed : t.changed = true → ∃ first last gone,
    t.first = some first ∧ t.last = some last ∧ first ≤ last ∧ last < t.lines.size ∧
      original = t.texts.take first ++ gone ++ t.texts.drop (last + 1)

/-- When a text has these lines before a stretch and after it, then it has fewer of them before and
after a longer stretch. -/
theorem exists_gone_of_le {original xs gone : List String} {first stop first' stop' : Nat}
    (h : original = xs.take first ++ gone ++ xs.drop stop) (hfirst : first' ≤ first)
    (hstop : stop ≤ stop') :
    ∃ gone', original = xs.take first' ++ gone' ++ xs.drop stop' := by
  have hbefore : xs.take first = xs.take first' ++ (xs.take first).drop first' := by
    conv => lhs; rw [← List.take_append_drop first' (xs.take first)]
    rw [List.take_take, Nat.min_eq_left hfirst]
  have hafter : xs.drop stop = (xs.drop stop).take (stop' - stop) ++ xs.drop stop' := by
    conv => lhs; rw [← List.take_append_drop (stop' - stop) (xs.drop stop)]
    rw [List.drop_drop, Nat.add_sub_cancel' hstop]
  refine ⟨(xs.take first).drop first' ++ gone ++ (xs.drop stop).take (stop' - stop), ?_⟩
  calc original
      = (xs.take first' ++ (xs.take first).drop first') ++ gone ++
          ((xs.drop stop).take (stop' - stop) ++ xs.drop stop') := by rw [← hbefore, ← hafter, h]
    _ = _ := by simp only [List.append_assoc]

namespace Spliced

variable {t t' : TextStore} {n old : Nat} {new : List Line}

theorem texts (h : Spliced t t' n old new) :
    t'.texts = t.texts.take n ++ new.map (·.text) ++ t.texts.drop (n + old) := by
  rw [TextStore.texts, h.lines, List.map_append, List.map_append, List.map_take, List.map_drop]
  rfl

theorem texts_take (h : Spliced t t' n old new) (i : Nat) (hi : i ≤ n) :
    t'.texts.take i = t.texts.take i := by
  have hn := h.inside
  rw [h.texts, List.append_assoc, List.take_append_of_le_length (by simp; omega), List.take_take,
    Nat.min_eq_left hi]

theorem texts_drop (h : Spliced t t' n old new) (i : Nat) (hi : n + new.length ≤ i) :
    t'.texts.drop i = t.texts.drop (i - new.length + old) := by
  have hn := h.inside
  have hlen : (t.texts.take n ++ new.map (·.text)).length = n + new.length := by simp; omega
  rw [h.texts, List.drop_append, List.drop_of_length_le (by omega), List.nil_append, hlen,
    List.drop_drop]
  congr 1
  omega

end Spliced

section
variable {original : List String} {t : TextStore} (h : Confines original t)
include h

/-- A splice takes lines from before and after the window into it, and moves its end. -/
theorem confines_spliced {t' : TextStore} {n old : Nat} {new : List Line}
    (hs : Spliced t t' n old new) : Confines original t' := by
  refine ⟨fun hc => Bool.noConfusion (hs.changed.symm.trans hc), fun _ => ?_⟩
  obtain ⟨last', hlast', hreach⟩ := hs.reach
  have hsize := hs.size
  have hinside := hs.inside
  have hreplaced := hs.replaced
  have hnonempty := hs.nonempty
  have hbefore := hs.texts_take (t.firstWith n) (t.firstWith_le n)
  have hafter := hs.texts_drop (last' + 1) (by omega)
  -- the window so far, as a stretch of lines; without one, a stretch of none
  obtain ⟨first, stop, gone, horiginal, hfirst, hstop, hlt⟩ : ∃ first stop gone,
      original = t.texts.take first ++ gone ++ t.texts.drop stop ∧ t.firstWith n ≤ first ∧
        stop ≤ last' + 1 - new.length + old ∧ last' < t'.lines.size := by
    cases hchanged : t.changed with
    | false =>
      obtain ⟨hfirst, hlast, htexts⟩ := h.unchanged hchanged
      rw [hlast, Option.getD_none] at hreach
      refine ⟨n, n, [], ?_, t.firstWith_le n, by omega, by omega⟩
      rw [List.append_nil, List.take_append_drop, htexts]
    | true =>
      obtain ⟨first, last, gone, hfirst, hlast, -, hlt, horiginal⟩ := h.changed hchanged
      rw [hlast, Option.getD_some] at hreach
      exact ⟨first, last + 1, gone, horiginal, t.firstWith_le_first n first hfirst, by omega,
        by omega⟩
  obtain ⟨gone', hgone⟩ := exists_gone_of_le horiginal hfirst hstop
  rw [← hbefore, ← hafter] at hgone
  have := t.firstWith_le n
  exact ⟨_, last', gone', hs.first, hlast', by omega, hlt, hgone⟩

/-- A store with the same lines and the same window confines as well. -/
theorem confines_depth (depth : Nat) : Confines original { t with depth := depth } :=
  ⟨h.unchanged, h.changed⟩

theorem confines_edit (he : t.editing = true) (e : Edit) : Confines original (t.edit e) := by
  have hdepth : t.depth ≠ 0 := by simp [editing] at he; omega
  cases e with
  | insert n col s =>
    simp only [edit]
    cases hi : t.insert n col s with
    | error r => exact h
    | ok t' =>
      rcases insert_cases _ _ _ _ _ hi with rfl | ⟨x, hs⟩
      · exact h
      · exact confines_spliced h hs
  | remove n start stop =>
    simp only [edit]
    cases hr : t.remove n start stop with
    | error r => exact h
    | ok out =>
      rcases remove_cases _ out.2 _ _ _ out.1 hr with heq | ⟨x, hs⟩
      · rw [← heq] at h
        exact h
      · exact confines_spliced h hs
  | wrap n col =>
    simp only [edit]
    cases hw : t.wrap n col with
    | error r => exact h
    | ok t' =>
      obtain ⟨x, y, hs⟩ := wrap_cases _ _ _ _ hw
      exact confines_spliced h hs
  | unwrap n =>
    simp only [edit]
    cases hu : t.unwrap n with
    | error r => exact h
    | ok t' =>
      obtain ⟨m, x, -, hs⟩ := unwrap_cases _ _ _ hu
      exact confines_spliced h hs
  | start =>
    simp only [edit, start, if_neg hdepth]
    exact confines_depth h _
  | finish =>
    simp only [edit, finish, if_neg hdepth]
    exact confines_depth h _

theorem confines_edited (edits : List Edit)
    (hopen : ∀ k, k < edits.length → (t.edited (edits.take k)).editing = true) :
    Confines original (t.edited edits) := by
  induction edits generalizing t with
  | nil => exact h
  | cons e edits ih =>
    refine ih (confines_edit h (hopen 0 (Nat.succ_pos _)) e) fun k hk => ?_
    exact hopen (k + 1) (Nat.succ_lt_succ hk)

end

/-- The outermost start opens no window. -/
theorem confines_start (t : TextStore) (h : t.start.1 = true) : Confines t.texts t.start.2 := by
  unfold start at h ⊢
  split at h
  · next hzero =>
    rw [if_pos hzero]
    exact ⟨fun _ => ⟨rfl, rfl, rfl⟩, fun hc => by cases hc⟩
  · cases h

/-- Take any store, start an outermost transaction, and edit inside it, starting and finishing inner
transactions at will; the last of the edits may finish the outermost.  If nothing was changed, the
texts are those at the start.  Otherwise there is a window of lines, by the numbers that the lines
have now; before it stand as many first lines of the text at the start, after it as many last lines
of that text, and no line of that text stands in both places. -/
theorem window_confines_transaction (t t' : TextStore) (hstart : t.start.1 = true)
    (edits : List Edit)
    (hopen : ∀ k, k < edits.length → (t.start.2.edited (edits.take k)).editing = true)
    (hend : t.start.2.edited edits = t') :
    (t'.changed = false → t'.texts = t.texts) ∧
    (t'.changed = true → ∃ first last gone, t'.first = some first ∧ t'.last = some last ∧
      first ≤ last ∧ last < t'.lines.size ∧
      t'.texts.take first = t.texts.take first ∧
      t'.texts.drop (last + 1) = t.texts.drop (t.lines.size - (t'.lines.size - (last + 1))) ∧
      t.texts = t'.texts.take first ++ gone ++ t'.texts.drop (last + 1)) := by
  have h := confines_edited (confines_start t hstart) edits hopen
  rw [hend] at h
  refine ⟨fun hc => (h.unchanged hc).2.2, fun hc => ?_⟩
  obtain ⟨first, last, gone, hfirst, hlast, hle, hlt, hgone⟩ := h.changed hc
  have hlen := congrArg List.length hgone
  simp only [List.length_append, List.length_take, List.length_drop, texts_length] at hlen
  refine ⟨first, last, gone, hfirst, hlast, hle, hlt, ?_, ?_, hgone⟩
  · conv => rhs; rw [hgone, List.append_assoc]
    exact (List.take_left' (by simp; omega)).symm
  · conv => rhs; rw [hgone]
    exact (List.drop_left' (by simp; omega)).symm

/-- Edits above, at the end of and below the window: what was line 2 moves down, and the window
with it. -/
def shifting : List Edit :=
  [.remove 2 0 1, .wrap 1 1, .start, .unwrap 4, .finish, .finish]

/-- The store with these lines. -/
def ofText (text : String) : TextStore :=
  empty.setText text

theorem window_confines_transaction_shifting :
    ∃ t', (ofText "ab\ncd\nef\ngh\nij").start.2.edited shifting = t' ∧
      t'.texts = ["ab", "c", "d", "fgh", "ij"] ∧ t'.changed = true ∧
      ∃ first last gone, t'.first = some first ∧ t'.last = some last ∧ first = 1 ∧ last = 3 ∧
        (ofText "ab\ncd\nef\ngh\nij").texts =
          t'.texts.take first ++ gone ++ t'.texts.drop (last + 1) := by
  have hend : ((ofText "ab\ncd\nef\ngh\nij").start.2.edited shifting).texts =
        ["ab", "c", "d", "fgh", "ij"] ∧
      ((ofText "ab\ncd\nef\ngh\nij").start.2.edited shifting).changed = true ∧
      ((ofText "ab\ncd\nef\ngh\nij").start.2.edited shifting).first = some 1 ∧
      ((ofText "ab\ncd\nef\ngh\nij").start.2.edited shifting).last = some 3 := by
    decide +kernel
  obtain ⟨htexts, hchanged, hfirst, hlast⟩ := hend
  obtain ⟨first, last, gone, hf, hl, -, -, -, -, hgone⟩ :=
    (window_confines_transaction (ofText "ab\ncd\nef\ngh\nij") _ rfl shifting (by decide +kernel)
      rfl).2 hchanged
  refine ⟨_, rfl, htexts, hchanged, first, last, gone, hf, hl, ?_, ?_, hgone⟩
  · exact Option.some.inj (hf.symm.trans hfirst)
  · exact Option.some.inj (hl.symm.trans hlast)

end Highlighting.TextStore

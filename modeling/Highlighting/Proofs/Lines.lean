import Mathlib.Data.List.Forall2
import Highlighting.Proofs.Incremental
import Highlighting.Proofs.Unbroken

/-!
# The lines and the text

A text is cut at its newlines into lines, and the lines joined with newlines give a text.  Two
things can be lost on the way there: a carriage return at the end of a line, and, if a line held a
newline, the place where it ended.  The first happens exactly to texts that have a carriage return
before a newline or at the end; the second never does:

    (t.setText s).text = s  ↔  no carriage return ends a line of s            (text_setText_iff)
    lines that hold no newline  →  the text is cut into them again                 (whole_iff)
    any run of edits and new texts                                           (whole_written)
    every buffer of every session                                             (Reached.whole)
-/

namespace Highlighting

/-! ## Carriage returns -/

namespace Text

/-- The line is the piece without one carriage return at its end, if there is one. -/
def Trims (piece : List Char) (line : String) : Prop :=
  piece = line.toList ++ ['\r'] ∨ piece = line.toList ∧ piece.getLast? ≠ some '\r'

theorem trims_dropReturn (piece : List Char) : Trims piece (String.ofList (dropReturn piece)) := by
  rw [Trims, String.toList_ofList, dropReturn]
  split
  · next h =>
    obtain ⟨front, rfl⟩ := List.getLast?_eq_some_iff.1 (beq_iff_eq.1 h)
    simp
  · next h => exact .inr ⟨rfl, by simpa using h⟩

/-- Does a carriage return stand before a newline, or at the end? -/
def EndsLine (cs : List Char) : Prop :=
  ['\r', '\n'] <:+: cs ∨ cs.getLast? = some '\r'

theorem endsLine_cons (c : Char) (cs : List Char) :
    EndsLine (c :: cs) ↔ c = '\r' ∧ (cs = [] ∨ cs.head? = some '\n') ∨ EndsLine cs := by
  have hinfix : ['\r', '\n'] <:+: c :: cs ↔
      c = '\r' ∧ cs.head? = some '\n' ∨ ['\r', '\n'] <:+: cs := by
    rw [List.infix_cons_iff, List.cons_prefix_cons]
    cases cs with
    | nil => simp
    | cons d ds => rw [List.cons_prefix_cons]; simp [eq_comm]
  rw [EndsLine, EndsLine, hinfix]
  cases cs with
  | nil => simp
  | cons d ds => rw [List.getLast?_cons_cons]; simp [or_assoc]

/-- The first piece is empty when a newline stands in front, or nothing at all. -/
theorem head?_splitNewlines (cs : List Char) :
    (splitNewlines cs).head? = some [] ↔ cs = [] ∨ cs.head? = some '\n' := by
  cases cs with
  | nil => simp [splitNewlines]
  | cons c cs =>
    obtain ⟨piece, pieces, h⟩ := List.exists_cons_of_ne_nil (splitNewlines_ne_nil cs)
    by_cases hc : c = '\n'
    · rw [hc, splitNewlines_newline]
      simp
    · rw [splitNewlines_cons hc h]
      simp [hc]

theorem forall_splitNewlines_iff (cs : List Char) :
    (∀ piece ∈ splitNewlines cs, piece.getLast? ≠ some '\r') ↔ ¬EndsLine cs := by
  induction cs with
  | nil => simp [splitNewlines, EndsLine]
  | cons c cs ih =>
    obtain ⟨piece, pieces, h⟩ := List.exists_cons_of_ne_nil (splitNewlines_ne_nil cs)
    rw [endsLine_cons, ← head?_splitNewlines, not_or, ← ih]
    by_cases hc : c = '\n'
    · rw [hc, splitNewlines_newline]
      simp
    · rw [splitNewlines_cons hc h, h]
      cases piece <;> simp

end Text

namespace TextStore

theorem texts_setText (t : TextStore) (s : String) : (t.setText s).texts = Text.linesOf s := by
  rw [texts, lineList, setText, List.map_map]
  exact List.map_id _

theorem toList_text (t : TextStore) :
    t.text.toList = ['\n'].intercalate (t.texts.map String.toList) :=
  Text.toList_joinNewlines _

theorem texts_ne_nil {t : TextStore} (h : 0 < t.lines.size) : t.texts ≠ [] :=
  List.ne_nil_of_length_pos (by rwa [texts_length])

/-- Each line of a text is one of its pieces, trimmed. -/
theorem trims_setText (t : TextStore) (s : String) :
    List.Forall₂ Text.Trims (s.toList.splitOn '\n') (t.setText s).texts := by
  rw [texts_setText, Text.linesOf, ← Text.splitNewlines_eq_splitOn, List.forall₂_map_right_iff,
    List.forall₂_same]
  exact fun piece _ => Text.trims_dropReturn piece

/-- A text comes back if no line of it ends with a carriage return, and only then. -/
theorem text_setText_iff (t : TextStore) (s : String) :
    (t.setText s).text = s ↔ ¬Text.EndsLine s.toList := by
  have htrimmed : (t.setText s).texts.map String.toList =
      (Text.splitNewlines s.toList).map Text.dropReturn := by
    rw [texts_setText, Text.linesOf, List.map_map]
    exact List.map_congr_left fun piece _ => String.toList_ofList
  have hjoined := (t.setText s).toList_text
  rw [htrimmed] at hjoined
  rw [← Text.forall_splitNewlines_iff]
  constructor
  · intro heq
    have hsplit := Text.splitOn_joinNewlines (texts_ne_nil (t := t.setText s) ?_) fun line hline =>
      Text.newline_not_mem_linesOf s line (texts_setText t s ▸ hline)
    · rw [htrimmed] at hsplit
      rw [show Text.joinNewlines (t.setText s).texts = s from heq,
        ← Text.splitNewlines_eq_splitOn] at hsplit
      have hmap := hsplit.symm.trans (List.map_id _).symm
      exact fun piece hpiece =>
        Text.dropReturn_eq_self_iff.1 (List.map_inj_left.1 hmap piece hpiece)
    · rw [← texts_length, texts_setText]
      exact List.length_pos_iff.2 (Text.linesOf_ne_nil s)
  · intro hkept
    rw [List.map_congr_left fun piece hpiece => Text.dropReturn_eq_self_iff.2 (hkept piece hpiece),
      List.map_id', Text.intercalate_splitNewlines] at hjoined
    exact String.toList_inj.1 hjoined

/-! ## Newlines -/

/-- The lines are what the text is cut into at its newlines. -/
structure Whole (t : TextStore) : Prop where
  lines_pos : 0 < t.lines.size
  unbroken : t.Unbroken
  split : t.text.toList.splitOn '\n' = t.texts.map String.toList
  count : t.lines.size = t.text.toList.count '\n' + 1

theorem whole_iff {t : TextStore} : t.Whole ↔ 0 < t.lines.size ∧ t.Unbroken := by
  refine ⟨fun h => ⟨h.lines_pos, h.unbroken⟩, fun ⟨hpos, hunbroken⟩ => ?_⟩
  have hsplit := Text.splitOn_joinNewlines (texts_ne_nil hpos) hunbroken
  refine ⟨hpos, hunbroken, hsplit, ?_⟩
  have hlength := Text.splitNewlines_length (Text.joinNewlines t.texts).toList
  rw [Text.splitNewlines_eq_splitOn, hsplit, List.length_map, texts_length] at hlength
  exact hlength

/-- A change of the text: an edit, or another text in the place of all lines. -/
inductive Writing
  | edit (e : Edit)
  | setText (s : String)
  | clear
  deriving Repr, DecidableEq

/-- The store after a change of the text. -/
def write (t : TextStore) : Writing → TextStore
  | .edit e => t.edit e
  | .setText s => t.setText s
  | .clear => t.clear

/-- The store after some changes of the text. -/
def written (t : TextStore) (ws : List Writing) : TextStore :=
  ws.foldl write t

theorem whole_setText (t : TextStore) (s : String) : (t.setText s).Whole := by
  refine whole_iff.2 ⟨?_, fun line hline => ?_⟩
  · rw [← texts_length, texts_setText]
    exact List.length_pos_iff.2 (Text.linesOf_ne_nil s)
  · exact Text.newline_not_mem_linesOf s line (texts_setText t s ▸ hline)

theorem whole_clear (t : TextStore) : t.clear.Whole := by
  refine whole_iff.2 ⟨Nat.one_pos, fun line hline => ?_⟩
  obtain rfl := List.mem_singleton.1 hline
  simp [Line.blank, Line.ofText]

theorem Whole.of_lines {t t' : TextStore} (h : t.Whole) (heq : t'.lines = t.lines) :
    t'.Whole := by
  have htexts : t'.texts = t.texts := congrArg (fun lines => lines.toList.map Line.text) heq
  refine whole_iff.2 ⟨heq ▸ h.lines_pos, fun line hline => h.unbroken line (htexts ▸ hline)⟩

theorem Spliced.lines_pos {t t' : TextStore} {n old : Nat} {new : List Line}
    (h : Spliced t t' n old new) : 0 < t'.lines.size := by
  have hsize := h.size
  have hnonempty := h.nonempty
  have hinside := h.inside
  omega

/-- Of the edits only an insertion brings characters, and one that brings a newline is refused. -/
theorem whole_edit {t : TextStore} (h : t.Whole) (e : Edit) : (t.edit e).Whole := by
  cases e with
  | insert n col s =>
    rw [edit]
    cases hi : t.insert n col s with
    | error r => exact h
    | ok t' =>
      refine whole_iff.2 ⟨?_, unbroken_insert h.unbroken hi⟩
      rcases insert_cases _ _ _ _ _ hi with rfl | ⟨x, hs⟩
      · exact h.lines_pos
      · exact hs.lines_pos
  | remove n start stop =>
    rw [edit]
    cases hr : t.remove n start stop with
    | error r => exact h
    | ok out =>
      refine whole_iff.2 ⟨?_, (unbroken_remove h.unbroken hr).1⟩
      rcases remove_cases _ out.2 _ _ _ out.1 hr with heq | ⟨x, hs⟩
      · exact heq ▸ h.lines_pos
      · exact hs.lines_pos
  | wrap n col =>
    rw [edit]
    cases hw : t.wrap n col with
    | error r => exact h
    | ok t' =>
      obtain ⟨x, y, hs⟩ := wrap_cases _ _ _ _ hw
      exact whole_iff.2 ⟨hs.lines_pos, unbroken_wrap h.unbroken hw⟩
  | unwrap n =>
    rw [edit]
    cases hu : t.unwrap n with
    | error r => exact h
    | ok t' =>
      obtain ⟨m, x, -, hs⟩ := unwrap_cases _ _ _ hu
      exact whole_iff.2 ⟨hs.lines_pos, unbroken_unwrap h.unbroken hu⟩
  | start => exact h.of_lines (lines_start t)
  | finish =>
    refine h.of_lines ?_
    rw [edit, finish]
    split <;> rfl

theorem whole_write {t : TextStore} (h : t.Whole) (w : Writing) : (t.write w).Whole := by
  cases w with
  | edit e => exact whole_edit h e
  | setText s => exact whole_setText t s
  | clear => exact whole_clear t

theorem whole_written {t : TextStore} (h : t.Whole) (ws : List Writing) : (t.written ws).Whole := by
  induction ws generalizing t with
  | nil => exact h
  | cons w ws ih => exact ih (whole_write h w)

end TextStore

theorem Session.Reached.whole {allowed : Op → Prop} {s : Session} (h : s.Reached allowed) :
    ∀ e ∈ s.buffers, e.2.store.Whole := fun e he =>
  TextStore.whole_iff.2 ⟨(h.orderly.buffers e he).lineCount_pos, h.unbroken e he⟩

namespace TextStore

/-- **Lines and text determine each other.**  A text is cut into lines at its newlines, and of each
piece one carriage return at its end is left out; the text comes back unless a carriage return
stands before a newline or at the end.  After any changes of the text, and in the buffers of every
session, there is a line, no line holds a newline, and cutting the text at its newlines gives the
lines, which are one more than its newlines. -/
theorem lines_determined (t : TextStore) :
    (∀ s : String, List.Forall₂ Text.Trims (s.toList.splitOn '\n') (t.setText s).texts ∧
      ((t.setText s).text = s ↔
        ¬(['\r', '\n'] <:+: s.toList ∨ s.toList.getLast? = some '\r'))) ∧
    (∀ ws : List Writing, (empty.written ws).Whole) ∧
    ∀ s : Session, s.Reachable → ∀ e ∈ s.buffers, e.2.store.Whole := by
  have hempty : empty.Whole := (whole_clear empty).of_lines rfl
  exact ⟨fun s => ⟨trims_setText t s, text_setText_iff t s⟩, whole_written hempty,
    fun s hs => hs.whole⟩

/-- Changes of a text for examples: a line is split, and a character before a carriage return is
removed. -/
def rewriting : List Writing :=
  [.setText "ab\r\ncd\r\r\n", .edit .start, .edit (.wrap 0 1), .edit (.remove 2 1 2)]

theorem lines_determined_rewriting :
    (empty.written rewriting).texts = ["a", "b", "c\r", ""] ∧
      (empty.written rewriting).text.toList.splitOn '\n' =
        [['a'], ['b'], ['c', '\r'], []] ∧
      (empty.setText "ab\ncd\n").text = "ab\ncd\n" ∧ (empty.setText "ab\r\n").text ≠ "ab\r\n" ∧
      ∀ e ∈ Session.bracesEdited.buffers, e.2.store.Whole := by
  obtain ⟨hset, hwritten, hsession⟩ := lines_determined empty
  have htexts : (empty.written rewriting).texts = ["a", "b", "c\r", ""] := by
    decide +kernel
  refine ⟨htexts, ?_, ?_, ?_, hsession _ (Session.reachable_after 0 .standard _)⟩
  · rw [(hwritten rewriting).split, htexts]
    rfl
  · exact (hset "ab\ncd\n").2.2 (by decide +kernel)
  · exact fun heq => (hset "ab\r\n").2.1 heq (.inl (by decide +kernel))

end TextStore

end Highlighting

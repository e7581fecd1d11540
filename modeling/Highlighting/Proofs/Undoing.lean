import Highlighting.Proofs.Sides
import Highlighting.Proofs.Unbroken

/-!
# Edits that undo each other

Each edit of lines has another one that takes it back.  What it gives back depends on what the first
edit has lost: joining two lines drops the annotations of the second, and all other edits drop
nothing.

    splitting a line, then joining    →  the same lines, as far highlighted as before
                                                                               (exists_wrap_unwrap)
    joining two lines, then splitting →  the same texts                        (exists_unwrap_wrap)
    inserting a text, then removing   →  the text is answered, and the lines are the same
                                                                             (exists_insert_remove)
    removing a text, then inserting   →  the same lines                      (exists_remove_insert)

The last one takes that no line holds a newline, so that what was removed may be inserted.
-/

namespace Highlighting

namespace TextStore

variable {t : TextStore} (he : t.editing = true)
include he

/-- Inserting nothing looks at no line. -/
theorem insert_nothing (n col : Nat) : t.insert n col "" = .ok t := by
  have hs : ¬("".contains '\n') = true := by simp [String.contains_char_eq]
  simp [insert, he, hs, pure, Except.pure]

/-- Removing nothing looks at no line. -/
theorem remove_nothing (n col : Nat) : t.remove n col col = .ok ("", t) := by
  simp [remove, he, pure, Except.pure]

end TextStore

namespace Buffer

variable {b : Buffer} (s : Shared)

theorem insert_of_store {line col : Nat} {text : String} {t : TextStore}
    (h : b.store.insert line col text = .ok t) :
    b.insert s line col text = ⟨.ok (), { b with store := t }, s⟩ := by
  rw [insert, h]
  rfl

theorem remove_of_store {line start stop : Nat} {removed : String} {t : TextStore}
    (h : b.store.remove line start stop = .ok (removed, t)) :
    b.remove s line start stop = ⟨.ok removed, { b with store := t }, s⟩ := by
  rw [remove, h]
  rfl

/-! ## Splitting and joining -/

theorem exists_wrap_unwrap {line col : Nat} (h : b.Admits (.wrap line col)) :
    ∃ b' s' b'' s'', b.wrap s line col = ⟨.ok (), b', s'⟩ ∧
      b'.unwrap s' (line + 1) = ⟨.ok (), b'', s''⟩ ∧ b''.lineList = b.lineList ∧
      b''.highlightedUpTo s'' = b.highlightedUpTo s := by
  obtain ⟨he, l, hl, hvalid⟩ := h
  obtain ⟨front, back, rfl, hlines⟩ := TextStore.exists_at hl
  obtain ⟨parts, hparts⟩ := (Text.cut?_ok_iff l.text col).2 hvalid
  have hcut : l.splitOff? col = some ({ l with text := parts.1 }, .ofText parts.2) := by
    rw [Line.splitOff?, hparts]
    rfl
  obtain ⟨t, ht, he', hlines'⟩ := TextStore.wrap_at he hlines hcut
  obtain ⟨b', s', hrun, rfl, hupTo⟩ := wrap_of_store s ht
  obtain ⟨t, ht, -, hlines''⟩ := TextStore.unwrap_at he' hlines'
  obtain ⟨b'', s'', hrun', rfl, hupTo'⟩ := unwrap_of_store s' ht
  refine ⟨b', s', b'', s'', hrun, hrun', ?_, ?_⟩
  · rw [Line.splitOff_append hcut] at hlines''
    exact hlines''.trans hlines.symm
  · by_cases hpast : front.length + 1 < b.highlightedUpTo s
    · rw [hupTo', hupTo, if_pos hpast, if_pos (by omega), Nat.add_sub_cancel]
    · rw [hupTo', hupTo, if_neg hpast, if_neg hpast]

theorem exists_unwrap_wrap {line : Nat} (h : b.Admits (.unwrap line)) :
    ∃ l b' s' b'' s'', b.lineList[line - 1]? = some l ∧
      b.unwrap s line = ⟨.ok (), b', s'⟩ ∧
      b'.wrap s' (line - 1) l.size = ⟨.ok (), b'', s''⟩ ∧ b''.texts = b.texts := by
  obtain ⟨he, hpos, hlt⟩ := h
  obtain ⟨n, rfl⟩ := Nat.exists_eq_add_of_le' hpos
  have hlt : n + 1 < b.store.lines.size := hlt
  have hl : b.store.lines[n]? = some b.store.lines[n] := Array.getElem?_eq_getElem (by omega)
  obtain ⟨front, back, rfl, hlines⟩ := TextStore.exists_at hl
  obtain ⟨x, back, rfl⟩ : ∃ x rest, back = x :: rest := by
    refine List.exists_cons_of_length_pos ?_
    have hlen := congrArg List.length hlines
    simp only [TextStore.lineList_length, List.length_append, List.length_cons] at hlen
    omega
  obtain ⟨t, ht, he', hlines'⟩ := TextStore.unwrap_at he hlines
  obtain ⟨b', s', hrun, rfl, -⟩ := unwrap_of_store s ht
  obtain ⟨t, ht, -, hlines''⟩ := TextStore.wrap_at he' hlines' (Line.append_splitOff? _ x)
  obtain ⟨b'', s'', hrun', rfl, -⟩ := wrap_of_store s' ht
  refine ⟨_, b', s', b'', s'', ?_, hrun, hrun', ?_⟩
  · show b.store.lines.toList[front.length]? = _
    rw [Array.getElem?_toList]
    exact hl
  · show b''.store.lineList.map (·.text) = b.store.lineList.map (·.text)
    rw [hlines'', hlines]
    simp [Line.ofText]

/-! ## Inserting and removing -/

theorem exists_insert_remove {line col : Nat} {text : String}
    (h : b.Admits (.insert line col text)) :
    ∃ b' b'', b.insert s line col text = ⟨.ok (), b', s⟩ ∧
      b'.remove s line col (col + text.utf8ByteSize) = ⟨.ok text, b'', s⟩ ∧
      b''.lineList = b.lineList := by
  obtain ⟨he, hs, rfl | ⟨l, hl, hvalid⟩⟩ := h
  · exact ⟨b, b, insert_of_store s (TextStore.insert_nothing he line col),
      remove_of_store s (TextStore.remove_nothing he line col), rfl⟩
  · obtain ⟨front, back, rfl, hlines⟩ := TextStore.exists_at hl
    obtain ⟨parts, hparts⟩ := (Text.cut?_ok_iff l.text col).2 hvalid
    have hx : l.insert? col text = some { l with text := parts.1 ++ text ++ parts.2 } := by
      rw [Line.insert?, hparts]
      rfl
    obtain ⟨t, ht, he', hlines'⟩ := TextStore.insert_at he hlines hs hx
    obtain ⟨t', ht', -, hlines''⟩ := TextStore.remove_at he' hlines' (Line.insert?_delete? hx)
    exact ⟨_, _, insert_of_store s ht, remove_of_store s ht', hlines''.trans hlines.symm⟩

theorem exists_remove_insert (hb : b.store.Unbroken) {line start stop : Nat}
    (h : b.Admits (.remove line start stop)) :
    ∃ removed b' b'', b.remove s line start stop = ⟨.ok removed, b', s⟩ ∧
      b'.insert s line start removed = ⟨.ok (), b'', s⟩ ∧ b''.lineList = b.lineList := by
  obtain ⟨he, hle, rfl | ⟨l, hl, hstart, hstop⟩⟩ := h
  · exact ⟨"", b, b, remove_of_store s (TextStore.remove_nothing he line start),
      insert_of_store s (TextStore.insert_nothing he line start), rfl⟩
  · obtain ⟨front, back, rfl, hlines⟩ := TextStore.exists_at hl
    obtain ⟨⟨x, removed, y⟩, hrange⟩ :=
      (Text.cutRange?_ok_iff l.text start stop).2 ⟨hle, hstart, hstop⟩
    have hx : l.delete? start stop = some (removed, { l with text := x ++ y }) := by
      rw [Line.delete?, hrange]
      rfl
    obtain ⟨t, ht, he', hlines'⟩ := TextStore.remove_at he hlines hx
    have hs := (TextStore.unbroken_remove hb ht).2
    obtain ⟨t', ht', -, hlines''⟩ := TextStore.insert_at he' hlines' hs (Line.delete?_insert? hx)
    exact ⟨removed, _, _, remove_of_store s ht, insert_of_store s ht',
      hlines''.trans hlines.symm⟩

end Buffer

namespace Session

/-- An operation on the buffer of a name succeeds with an answer.  This is the session it leaves,
and the buffer in it. -/
structure Does (s : Session) (name : String) (op : BufferOp) (a : Answer) (s' : Session)
    (b' : Buffer) : Prop where
  step : s.step (.buffer name op) = (.ok a, s')
  buffer : s'.buffers.lookup name = some b'

theorem does_of_run {s : Session} {name : String} {b b' : Buffer} {a : Answer} {shared : Shared}
    (hb : s.buffers.lookup name = some b) (op : BufferOp)
    (hrun : runOnBuffer b s.shared op = ⟨.ok a, b', shared⟩) :
    s.Does name op a { s with shared := shared, buffers := put name b' s.buffers } b' := by
  refine ⟨?_, lookup_put name b' s.buffers⟩
  rw [step_buffer hb, hrun]
  rfl

/-- **Edits undo each other.**  In every session, take any edit that may be made.  Splitting a line
and then joining the two parts leaves all lines as they were, text and annotations, and as many of
them highlighted.  Joining a line to the one before it and then splitting that where it ended leaves
all texts as they were.  Inserting a text and then removing it answers that text and leaves all
lines as they were; and so does removing a text and then inserting what was answered. -/
theorem edits_undone {s : Session} (hs : s.Reachable) {name : String} {b : Buffer}
    (hb : s.buffers.lookup name = some b) :
    (∀ line col, b.Admits (.wrap line col) → ∃ s' b' s'' b'',
      s.Does name (.wrap line col) .done s' b' ∧
      s'.Does name (.unwrap (line + 1)) .done s'' b'' ∧
      b''.lineList = b.lineList ∧ b''.lineCount = b.lineCount ∧
      b''.highlightedUpTo s''.shared = b.highlightedUpTo s.shared) ∧
    (∀ line, b.Admits (.unwrap line) → ∃ l s' b' s'' b'', b.lineList[line - 1]? = some l ∧
      s.Does name (.unwrap line) .done s' b' ∧
      s'.Does name (.wrap (line - 1) l.size) .done s'' b'' ∧ b''.texts = b.texts) ∧
    (∀ line col text, b.Admits (.insert line col text) → ∃ s' b' s'' b'',
      s.Does name (.insert line col text) .done s' b' ∧
      s'.Does name (.remove line col (col + text.utf8ByteSize)) (.text (some text)) s'' b'' ∧
      b''.lineList = b.lineList) ∧
    (∀ line start stop, b.Admits (.remove line start stop) → ∃ removed s' b' s'' b'',
      s.Does name (.remove line start stop) (.text (some removed)) s' b' ∧
      s'.Does name (.insert line start removed) .done s'' b'' ∧ b''.lineList = b.lineList) := by
  refine ⟨fun line col h => ?_, fun line h => ?_, fun line col text h => ?_,
    fun line start stop h => ?_⟩
  · obtain ⟨b', s', b'', s'', hrun, hrun', hlines, hupTo⟩ := Buffer.exists_wrap_unwrap s.shared h
    have hdoes := does_of_run hb (.wrap line col) (by rw [runOnBuffer, hrun]; rfl)
    have hdoes' := does_of_run hdoes.buffer (.unwrap (line + 1)) (by rw [runOnBuffer, hrun']; rfl)
    exact ⟨_, _, _, _, hdoes, hdoes', hlines, congrArg List.length hlines, hupTo⟩
  · obtain ⟨l, b', s', b'', s'', hl, hrun, hrun', htexts⟩ := Buffer.exists_unwrap_wrap s.shared h
    have hdoes := does_of_run hb (.unwrap line) (by rw [runOnBuffer, hrun]; rfl)
    have hdoes' := does_of_run hdoes.buffer (.wrap (line - 1) l.size)
      (by rw [runOnBuffer, hrun']; rfl)
    exact ⟨l, _, _, _, _, hl, hdoes, hdoes', htexts⟩
  · obtain ⟨b', b'', hrun, hrun', hlines⟩ := Buffer.exists_insert_remove s.shared h
    have hdoes := does_of_run hb (.insert line col text) (by rw [runOnBuffer, hrun]; rfl)
    have hdoes' := does_of_run hdoes.buffer (.remove line col (col + text.utf8ByteSize))
      (by rw [runOnBuffer, hrun']; rfl)
    exact ⟨_, _, _, _, hdoes, hdoes', hlines⟩
  · obtain ⟨removed, b', b'', hrun, hrun', hlines⟩ :=
      Buffer.exists_remove_insert s.shared (hs.unbroken _ (mem_of_lookup hb)) h
    have hdoes := does_of_run hb (.remove line start stop) (by rw [runOnBuffer, hrun]; rfl)
    have hdoes' := does_of_run hdoes.buffer (.insert line start removed)
      (by rw [runOnBuffer, hrun']; rfl)
    exact ⟨removed, _, _, _, _, hdoes, hdoes', hlines⟩

/-- A session with one buffer that is to be rebuilt, and a transaction open; the second character
takes two bytes. -/
def accentedOpen : Session :=
  (start 0 .standard).after
    [.define "braces" (.ok .braces) false, .newBuffer "text" (some "aéb\nc") none,
      .useHandle "text" "braces", .buffer "text" (.ensure 0 0), .buffer "text" .editStart,
      .requestRebuild]

theorem edits_undone_accentedOpen :
    ∃ b, accentedOpen.buffers.lookup "text" = some b ∧
      (∃ s' b' s'' b'', accentedOpen.Does "text" (.wrap 0 3) .done s' b' ∧
        s'.Does "text" (.unwrap 1) .done s'' b'' ∧ b''.lineList = b.lineList) ∧
      ∃ removed s' b' s'' b'',
        accentedOpen.Does "text" (.remove 0 1 3) (.text (some removed)) s' b' ∧
          s'.Does "text" (.insert 0 1 removed) .done s'' b'' ∧ b''.lineList = b.lineList := by
  have hs : accentedOpen.Reachable := .after (.start 0 .standard) _ (by simp)
  obtain ⟨b, hb⟩ : ∃ b, accentedOpen.buffers.lookup "text" = some b := ⟨_, rfl⟩
  have hstate : accentedOpen.buffers.all (fun e =>
      e.2.store.editing && e.2.store.lines[0]?.any fun l => l.text == "aéb") = true := by
    decide +kernel
  have hone := List.all_eq_true.1 hstate _ (mem_of_lookup hb)
  simp only [Bool.and_eq_true, Option.any_eq_true, beq_iff_eq] at hone
  obtain ⟨he, l, hl, htext⟩ := hone
  obtain ⟨hwrap, -, -, hremove⟩ := edits_undone hs hb
  have hvalid : ∀ i, i = 1 ∨ i = 3 → String.Pos.Raw.IsValid l.text ⟨i⟩ := by
    rw [htext]
    rintro i (rfl | rfl) <;> decide
  obtain ⟨s', b', s'', b'', hfirst, hsecond, hlines, -⟩ :=
    hwrap 0 3 ⟨he, l, hl, hvalid 3 (.inr rfl)⟩
  exact ⟨b, hb, ⟨s', b', s'', b'', hfirst, hsecond, hlines⟩,
    hremove 0 1 3 ⟨he, by decide, .inr ⟨l, hl, hvalid 1 (.inl rfl), hvalid 3 (.inr rfl)⟩⟩⟩

end Session

end Highlighting

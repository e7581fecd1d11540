import Highlighting.Proofs.Contracts
import Highlighting.Proofs.Frontiers
import Highlighting.Proofs.Transactions

/-!
# No line holds a newline

A text is cut at its newlines when it is put into a buffer, an insertion that holds one is refused,
and no other edit makes characters that were not there before.  So no line ever holds a newline:

    a splice of lines without newlines                →  no newline            (Spliced.unbroken)
    any edit of a store                               →  no newline             (unbroken_insert …)
    highlighting, asking, closing a transaction       →  the same texts         (texts_editEnd …)
    any operation of a buffer                         →  no newline        (unbroken_runOnBuffer)
    every reachable session                                                   (Reached.unbroken)

What is removed from a line can therefore be inserted again.
-/

namespace Highlighting

namespace TextStore

/-- No line holds a newline. -/
def Unbroken (t : TextStore) : Prop :=
  ∀ text ∈ t.texts, '\n' ∉ text.toList

theorem Unbroken.line {t : TextStore} (h : t.Unbroken) {n : Nat} {l : Line}
    (hl : t.lines[n]? = some l) : '\n' ∉ l.text.toList := by
  rw [← Array.getElem?_toList] at hl
  exact h _ (List.mem_map_of_mem (List.mem_of_getElem? hl))

theorem Spliced.unbroken {t t' : TextStore} {n old : Nat} {new : List Line}
    (h : Spliced t t' n old new) (ht : t.Unbroken) (hnew : ∀ l ∈ new, '\n' ∉ l.text.toList) :
    t'.Unbroken := by
  intro text htext
  rw [h.texts] at htext
  rcases List.mem_append.1 htext with htext | htext
  · rcases List.mem_append.1 htext with htext | htext
    · exact ht text (List.mem_of_mem_take htext)
    · obtain ⟨l, hl, rfl⟩ := List.mem_map.1 htext
      exact hnew l hl
  · exact ht text (List.mem_of_mem_drop htext)

section
variable {t t' : TextStore} (ht : t.Unbroken)
include ht

/-! ## Edits -/

theorem unbroken_insert {n col : Nat} {s : String} (h : t.insert n col s = .ok t') :
    t'.Unbroken := by
  obtain ⟨-, hs, -⟩ := (t.insert_ok_iff n col s).1 ⟨t', h⟩
  rcases insert_inv h with ⟨-, rfl⟩ | ⟨l, x, hl, hx, hspliced⟩
  · exact ht
  · have hline := ht.line hl
    obtain ⟨⟨a, b⟩, hcut, rfl⟩ := Option.map_eq_some_iff.1 hx
    rw [Text.cut?_append hcut] at hline
    exact hspliced.unbroken ht (by simp_all)

theorem unbroken_remove {n start stop : Nat} {removed : String}
    (h : t.remove n start stop = .ok (removed, t')) :
    t'.Unbroken ∧ '\n' ∉ removed.toList := by
  rcases remove_inv h with ⟨-, rfl, rfl⟩ | ⟨l, x, hl, hx, hspliced⟩
  · exact ⟨ht, by simp⟩
  · have hline := ht.line hl
    obtain ⟨⟨a, y, b⟩, hrange, heq⟩ := Option.map_eq_some_iff.1 hx
    obtain ⟨rfl, rfl⟩ := Prod.mk.inj heq
    rw [(Text.cutRange?_eq_some_iff.1 hrange).1] at hline
    exact ⟨hspliced.unbroken ht (by simp_all), by simp_all⟩

theorem unbroken_wrap {n col : Nat} (h : t.wrap n col = .ok t') : t'.Unbroken := by
  obtain ⟨l, a, b, hl, hcut, hspliced⟩ := wrap_inv h
  have hline := ht.line hl
  rw [← Line.splitOff_append hcut, Line.append] at hline
  exact hspliced.unbroken ht (by simp_all)

theorem unbroken_unwrap {n : Nat} (h : t.unwrap n = .ok t') : t'.Unbroken := by
  obtain ⟨m, a, b, -, ha, hb, hspliced⟩ := unwrap_inv h
  exact hspliced.unbroken ht (by simp [Line.append, ht.line ha, ht.line hb])

end

end TextStore

namespace Buffer

theorem store_texts (b : Buffer) : b.store.texts = b.texts := rfl

section
variable {b : Buffer} {s : Shared} (h : b.Orderly s)
include h

/-! ## Operations that change no text -/

/-- Closing a transaction highlights, and changes no text. -/
theorem texts_editEnd : (b.editEnd s).buffer.texts = b.texts := by
  cases hc : b.entered s .editEnd with
  | none =>
    rcases editEnd_of_entered_none h hc with he | he | he <;> rw [he]
    · rfl
    · exact (same_sync b.closed s).texts
  | some c =>
    have hentered := enters_editEnd h hc
    rw [editEnd_of_entered h hc, ← hentered.texts]
    rcases c.run_cases hentered.ready with ⟨-, hrun⟩ |
      ⟨-, frontier, news, limit, since, pauses, hrun, -⟩ <;> rw [hrun]
    · exact (SameText.annotate c.buffer _ _ _ _ _).texts
    · exact (SameText.annotate c.buffer _ _ _ _ _).texts

theorem texts_ensure (line lookahead : Nat) :
    (b.ensure s line lookahead).buffer.texts = b.texts := by
  obtain ⟨result, b', s', hrun, -, hsame, -⟩ := ensure_spec h line lookahead
  rw [hrun]
  exact hsame.texts

/-! ## Any operation -/

variable (hb : b.store.Unbroken)
include hb

omit h in
theorem unbroken_unwrapOnce (line : Nat) : (b.unwrap s line).buffer.store.Unbroken := by
  unfold unwrap
  dsimp only
  rw [store_sync]
  cases hu : b.store.unwrap line with
  | error r => exact b.store_sync s ▸ hb
  | ok t => exact TextStore.unbroken_unwrap hb hu

theorem unbroken_runOnBuffer (op : BufferOp) :
    (Session.runOnBuffer b s op).buffer.store.Unbroken := by
  have htexts : ∀ b' : Buffer, b'.texts = b.texts → b'.store.Unbroken := by
    intro b' heq text htext
    rw [store_texts, heq] at htext
    exact hb text htext
  cases op with
  | setText text =>
    intro line hline
    have hline : line ∈ (b.setText text).texts := hline
    rw [texts_setText] at hline
    exact Text.newline_not_mem_linesOf text line hline
  | clear =>
    intro line hline
    obtain rfl := List.mem_singleton.1 hline
    simp [Line.blank, Line.ofText]
  | editStart =>
    refine htexts b.editStart ?_
    rw [texts, lineList, editStart, b.store.lines_start]
    rfl
  | editEnd => exact htexts _ (texts_editEnd h)
  | insert line col text =>
    show (b.insert s line col text).buffer.store.Unbroken
    unfold insert withStore
    cases hi : b.store.insert line col text with
    | error r => exact hb
    | ok t => exact TextStore.unbroken_insert hb hi
  | remove line start stop =>
    show (b.remove s line start stop).buffer.store.Unbroken
    unfold remove withStore
    cases hr : b.store.remove line start stop with
    | error r => exact hb
    | ok out => exact (TextStore.unbroken_remove hb hr).1
  | wrap line col =>
    show (b.wrap s line col).buffer.store.Unbroken
    unfold wrap
    dsimp only
    rw [store_sync]
    cases hw : b.store.wrap line col with
    | error r => exact b.store_sync s ▸ hb
    | ok t => exact TextStore.unbroken_wrap hb hw
  | unwrap line => exact unbroken_unwrapOnce hb line
  | unwrapLines first last =>
    exact chain_unwrapLines (R := fun b _ b' _ => b.store.Unbroken → b'.store.Unbroken)
      (fun _ _ => id) (fun hk hk' hb => hk' (hk hb))
      (fun b s line hb => unbroken_unwrapOnce hb line) b s first last hb
  | invalidate => exact hb
  | setTabWidth width =>
    obtain ⟨tab, frontier, he, -⟩ := b.setTabWidth_cases width
    show (b.setTabWidth width).store.Unbroken
    rw [he]
    exact hb
  | ensure line lookahead => exact htexts _ (texts_ensure h line lookahead)
  | fold line => exact htexts _ ((searches_foldRange b s line).same h).texts
  | folds => exact htexts _ ((searches_foldEach b s b.lineCount 0).same h).texts
  | line n => exact hb
  | dump => exact hb
  | text => exact hb
  | takeEvents => exact htexts _ (same_sync b s).texts

end

end Buffer

namespace Session

/-- A buffer after one is opened was there before, or is the one with the text that was given. -/
theorem mem_newBuffer {s : Session} {name : String} {text : Option String}
    {settings : Option Settings} {e : String × Buffer}
    (he : e ∈ (s.step (.newBuffer name text settings)).2.buffers) :
    e ∈ s.buffers ∨ e.2.texts = Text.linesOf (text.getD "") := by
  rcases mem_put he with rfl | ⟨hold, -⟩
  · right
    cases text with
    | none => rfl
    | some t => exact Buffer.texts_setText _ t
  · exact .inl (mem_closeBuffer hold)

theorem Reached.unbroken {allowed : Op → Prop} {s : Session} (h : s.Reached allowed) :
    ∀ e ∈ s.buffers, e.2.store.Unbroken := by
  induction h with
  | start resetDelay settings => exact fun e he => by cases he
  | step op hs _ ih =>
    intro e he
    cases came_step hs.orderly op he with
    | stayed hold _ _ => exact ih e hold
    | used hb hop hbuffer _ =>
      have hmem := mem_of_lookup hb
      rw [hbuffer]
      exact Buffer.unbroken_runOnBuffer (hs.orderly.buffers _ hmem) (ih _ hmem) _
    | given k hmem _ hbuffer _ =>
      rw [hbuffer, Buffer.store_setHandle]
      exact ih _ hmem
    | opened hop _ _ =>
      subst hop
      rcases mem_newBuffer he with hold | htexts
      · exact ih e hold
      · intro line hline
        rw [Buffer.store_texts, htexts] at hline
        exact Text.newline_not_mem_linesOf _ line hline

end Session

end Highlighting

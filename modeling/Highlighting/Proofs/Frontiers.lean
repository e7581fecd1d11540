import Highlighting.Proofs.Provenance

/-!
# How far a frontier can go

Every operation leaves a frontier within its buffer, but for one: when closing a transaction is
granted a reset, the frontier moves to the line after the last changed one, whether there are so
many lines or not.  `Overshoots` is that step, and no other leads out:

    frontiers within, before  →  (within after  ↔  not an overshoot)              (within_step_iff)

An overshoot needs a window of changed lines that ends past the text.  The edits of a transaction
keep the window in the text (Spliced.bounded), so that only replacing the text under an open
transaction leads there.

    no text is replaced under an open transaction  →  every frontier is within its buffer
                                                                (highlightedUpTo_le_lineCount)
-/

namespace Highlighting

namespace TextStore

/-- While a transaction is open, the window of changed lines ends at a line. -/
def Bounded (t : TextStore) : Prop :=
  t.editing = true → ∀ last, t.last = some last → last < t.lines.size

theorem Bounded.of_closed {t : TextStore} (h : t.editing = false) : t.Bounded := by
  intro he
  rw [h] at he
  cases he

theorem Spliced.bounded {t t' : TextStore} {n old : Nat} {new : List Line}
    (h : Spliced t t' n old new) (hc : t.Bounded) : t'.Bounded := by
  intro _ last' hlast'
  obtain ⟨_, hl, hreach⟩ := h.reach
  obtain rfl := Option.some.inj (hl.symm.trans hlast')
  have hsize := h.size
  have hinside := h.inside
  have hold := h.replaced
  have hbefore : t.last.getD 0 < t.lines.size := by
    cases hlast : t.last with
    | none =>
      rw [Option.getD_none]
      omega
    | some last => exact hc h.editing last hlast
  omega

theorem lines_start (t : TextStore) : t.start.2.lines = t.lines := by
  unfold start
  split <;> rfl

theorem bounded_start (t : TextStore) (hc : t.Bounded) : t.start.2.Bounded := by
  unfold start
  split
  · intro _ last hlast
    cases hlast
  · next hopen => exact fun _ => hc (by simp [editing]; omega)

end TextStore

/-- Does an operation replace the whole text? -/
def BufferOp.reloads : BufferOp → Bool
  | .setText _ => true
  | .clear => true
  | _ => false

namespace Buffer

/-- The frontier is at a line, or at the end of the text. -/
def Within (b : Buffer) (s : Shared) : Prop :=
  b.highlightedUpTo s ≤ b.lineCount

/-- What an operation of a buffer may do if it leaves the frontier within the buffer and the window
of changed lines in the text. -/
structure Stays (b : Buffer) (s : Shared) (b' : Buffer) (s' : Shared) : Prop where
  within : b.Within s → b'.Within s'
  bounded : b.store.Bounded → b'.store.Bounded

namespace Stays

variable {b b' b'' : Buffer} {s s' s'' : Shared}

theorem refl (b : Buffer) (s : Shared) : b.Stays s b s :=
  ⟨id, id⟩

theorem trans (h : b.Stays s b' s') (k : b'.Stays s' b'' s'') : b.Stays s b'' s'' :=
  ⟨fun hw => k.within (h.within hw), fun hc => k.bounded (h.bounded hc)⟩

end Stays

section
variable {b b' : Buffer} {s : Shared}

/-- The frontier falls or stays, and there are as many lines as before. -/
theorem stays_of_le (hslot : b'.slot = b.slot) (hfrontier : b'.frontier ≤ b.frontier)
    (hcount : b'.lineCount = b.lineCount) (hbounded : b.store.Bounded → b'.store.Bounded) :
    b.Stays s b' s := by
  refine ⟨fun hw => ?_, hbounded⟩
  unfold Within highlightedUpTo at hw ⊢
  rw [hslot, hcount]
  split
  · exact Nat.zero_le _
  · next hp =>
    rw [if_neg hp] at hw
    exact Nat.le_trans hfrontier hw

/-- Nothing is highlighted any more. -/
theorem within_of_zero (hzero : b'.frontier = 0) : b'.Within s := by
  have hle := b'.highlightedUpTo_le s
  rw [hzero] at hle
  exact Nat.le_trans hle (Nat.zero_le _)

theorem stays_sync (b : Buffer) (s : Shared) : b.Stays s (b.sync s).1 (b.sync s).2 := by
  rcases b.sync_cases s with ⟨-, hs⟩ | ⟨hp, hs⟩ <;> rw [hs]
  · exact ⟨fun _ => within_of_zero rfl, id⟩
  · refine ⟨fun hw => ?_, id⟩
    rw [Within, highlightedUpTo_of_answered _ _ hp] at hw
    exact Nat.le_trans (b.highlightedUpTo_le _) hw

/-! ## Edits -/

theorem stays_splice {t : TextStore} {n old frontier : Nat} {new : List Line}
    (h : TextStore.Spliced b.store t n old new) (hp : s.pending b.slot = false)
    (hfrontier : b.frontier ≤ b.lineCount → frontier ≤ t.lines.size) :
    b.Stays s { b with store := t, frontier := frontier } s := by
  refine ⟨fun hw => ?_, h.bounded⟩
  rw [Within, highlightedUpTo_of_answered _ _ hp] at hw
  exact Nat.le_trans (highlightedUpTo_le _ _) (hfrontier hw)

theorem stays_edited {s' : Shared} (he : b.Edited s b' s') : b.Stays s b' s' := by
  have hsync := stays_sync b s
  have hpending := b.pending_sync s
  cases he with
  | same => exact .refl b s
  | refused => exact hsync
  | retext hsplice =>
    exact stays_of_le rfl (Nat.le_refl _) (Nat.add_right_cancel hsplice.size) hsplice.bounded
  | @wrapped t n x y hsplice =>
    have hsize : t.lines.size + 1 = (b.sync s).1.lineCount + 2 := hsplice.size
    refine hsync.trans (stays_splice hsplice hpending fun hle => ?_)
    split <;> omega
  | @unwrapped t n x hsplice =>
    have hsize : t.lines.size + 2 = (b.sync s).1.lineCount + 1 := hsplice.size
    have hinside : n + 2 ≤ (b.sync s).1.lineCount := hsplice.inside
    refine hsync.trans (stays_splice hsplice hpending fun hle => ?_)
    split <;> omega

theorem stays_setTabWidth (b : Buffer) (s : Shared) (width : Nat) :
    b.Stays s (b.setTabWidth width) s := by
  obtain ⟨tab, frontier, he, hfrontier⟩ := b.setTabWidth_cases width
  rw [he]
  exact stays_of_le rfl (hfrontier.elim (· ▸ Nat.zero_le _) Nat.le_of_eq) rfl id

theorem stays_setHandle (b : Buffer) (s : Shared) (k : Handle) :
    b.Stays s (b.setHandle k) s := by
  rcases b.setHandle_cases k with he | ⟨frontier, mode, he, hfrontier⟩ <;> rw [he]
  · exact .refl b s
  · exact stays_of_le rfl (hfrontier.elim (· ▸ Nat.zero_le _) fun hf => Nat.le_of_eq hf.1) rfl id

/-! ## Passes -/

/-- Lines are highlighted, and the frontier moves to one of them or to the end. -/
theorem stays_highlighted {s' : Shared} (hsame : SameText b b')
    (hwindow : b'.store = { b.store with lines := b'.store.lines })
    (hfrontier : b.Within s → b'.frontier ≤ b.lineCount) : b.Stays s b' s' := by
  refine ⟨fun hw => ?_, fun hbounded => ?_⟩
  · rw [Within, hsame.lineCount]
    exact Nat.le_trans (b'.highlightedUpTo_le s') (hfrontier hw)
  · rw [hwindow]
    intro he last hlast
    exact Nat.lt_of_lt_of_eq (hbounded he last hlast) hsame.lineCount.symm

/-- A pass that is granted a reset stays within the buffer when it was asked to; any other does. -/
theorem stays_run (c : PassCall) (hc : c.Ready)
    (hlast : c.resets = true → c.last ≤ c.buffer.lineCount) :
    c.buffer.Stays c.shared c.run.buffer c.run.shared := by
  have hfirst := hc.first_le
  rcases c.run_cases hc with ⟨hr, hrun⟩ |
    ⟨-, frontier, news, limit, since, pauses, hrun, hfrontier, -⟩ <;> rw [hrun]
  · exact stays_highlighted (.annotate c.buffer _ _ _ _ _) rfl fun _ => hlast hr
  · refine stays_highlighted (.annotate c.buffer _ _ _ _ _) rfl fun hw => ?_
    rw [Within, highlightedUpTo_of_answered _ _ hc.pending] at hw
    show frontier ≤ c.buffer.lineCount
    rcases hfrontier with rfl | ⟨rfl, -⟩ <;> omega

end

section
variable {b : Buffer} {s : Shared} (h : b.Orderly s)

theorem stays_closed (b : Buffer) (s : Shared) : b.Stays s b.closed s :=
  stays_of_le rfl (Nat.le_refl _) rfl fun _ => .of_closed rfl

/-- An operation that enters a pass stays within the buffer when a reset that is granted to it is
to highlight no further. -/
theorem stays_entered {op : BufferOp} {c : PassCall} (hc : c.EnteredBy b s op)
    (hbefore : b.Stays s c.buffer c.shared) (hlast : c.resets = true → c.last ≤ b.lineCount) :
    b.Stays s (Session.runOnBuffer b s op).buffer (Session.runOnBuffer b s op).shared := by
  have hcount : c.buffer.lineCount = b.lineCount := by
    rw [← c.buffer.texts_length, hc.texts, b.texts_length]
  rw [hc.run]
  exact hbefore.trans (stays_run c hc.ready fun hr => hcount ▸ hlast hr)

include h in
theorem stays_ensure (line lookahead : Nat) :
    b.Stays s (b.ensure s line lookahead).buffer (b.ensure s line lookahead).shared := by
  cases hc : b.entered s (.ensure line lookahead) with
  | none =>
    obtain ⟨result, hrun⟩ := ensure_of_entered_none hc
    rw [hrun]
    exact stays_sync b s
  | some c =>
    have hentered := enters_ensure h hc
    obtain ⟨k, last, -, -, -, -, rfl⟩ := entered_ensure hc
    refine stays_entered hentered (stays_sync b s) fun _ => ?_
    show min last (b.lineCount - 1) ≤ b.lineCount
    omega

include h in
theorem stays_editEnd (hlast : ∀ c, b.entered s .editEnd = some c → c.resets = true →
    c.last ≤ b.lineCount) : b.Stays s (b.editEnd s).buffer (b.editEnd s).shared := by
  cases hc : b.entered s .editEnd with
  | none =>
    rcases editEnd_of_entered_none h hc with he | he | he <;> rw [he]
    · exact .refl b s
    · refine stays_of_le rfl (Nat.le_refl _) rfl fun hbounded hediting => hbounded ?_
      simp only [TextStore.editing, decide_eq_true_eq] at hediting ⊢
      omega
    · exact (stays_closed b s).trans (stays_sync b.closed s)
  | some c =>
    refine stays_entered (enters_editEnd h hc) ?_ (hlast c hc)
    obtain ⟨first, last, k, -, -, -, -, -, rfl⟩ := entered_editEnd hc
    exact (stays_closed b s).trans (stays_sync b.closed s)

include h in
theorem stays_asked (lines : List Nat) : b.Stays s (b.asked s lines).1 (b.asked s lines).2 := by
  induction lines generalizing b s with
  | nil => exact .refl b s
  | cons line lines ih =>
    exact (stays_ensure h line b.lookahead).trans (ih (keeps_ensure h line b.lookahead).orderly)

include h in
theorem stays_searches {α : Type} {lines : List Nat} {o : Outcome α} (k : b.Searches s lines o) :
    b.Stays s o.buffer o.shared := by
  have hstays := stays_asked h lines
  rw [k] at hstays
  exact hstays

include h in
/-- Every operation stays within the buffer, unless it replaces the text under an open transaction,
or is granted a reset to highlight more lines than there are. -/
theorem stays_runOnBuffer (op : BufferOp) (hreload : op.reloads = true → b.store.editing = false)
    (hlast : ∀ c, b.entered s op = some c → op = .editEnd → c.resets = true →
      c.last ≤ b.lineCount) :
    b.Stays s (Session.runOnBuffer b s op).buffer (Session.runOnBuffer b s op).shared := by
  cases op with
  | setText text => exact ⟨fun _ => within_of_zero rfl, fun _ => .of_closed (hreload rfl)⟩
  | clear => exact ⟨fun _ => within_of_zero rfl, fun _ => .of_closed (hreload rfl)⟩
  | editStart =>
    exact stays_of_le rfl (Nat.le_refl _) (congrArg Array.size b.store.lines_start)
      b.store.bounded_start
  | editEnd => exact stays_editEnd h fun c hc => hlast c hc rfl
  | insert line col text => exact stays_edited (b.edited_insert s line col text)
  | remove line start stop => exact stays_edited (b.edited_remove s line start stop)
  | wrap line col => exact stays_edited (b.edited_wrap s line col)
  | unwrap line => exact stays_edited (b.edited_unwrap s line)
  | unwrapLines first last =>
    exact chain_unwrapLines .refl .trans (fun b s line => stays_edited (b.edited_unwrap s line))
      b s first last
  | invalidate => exact stays_of_le rfl (Nat.zero_le _) rfl id
  | setTabWidth width => exact stays_setTabWidth b s width
  | ensure line lookahead => exact stays_ensure h line lookahead
  | fold line => exact stays_searches h (searches_foldRange b s line)
  | folds => exact stays_searches h (searches_foldEach b s b.lineCount 0)
  | line n => exact .refl b s
  | dump => exact .refl b s
  | text => exact .refl b s
  | takeEvents =>
    exact (stays_sync b s).trans (stays_of_le rfl (Nat.le_refl _) rfl id)

include h in
/-- For the frontier alone, it does not matter that a text is replaced. -/
theorem within_runOnBuffer (op : BufferOp)
    (hlast : ∀ c, b.entered s op = some c → op = .editEnd → c.resets = true →
      c.last ≤ b.lineCount) (hw : b.Within s) :
    (Session.runOnBuffer b s op).buffer.Within (Session.runOnBuffer b s op).shared := by
  cases hreload : op.reloads with
  | false =>
    exact (stays_runOnBuffer h op (fun h => absurd (hreload.symm.trans h) (by decide)) hlast).within
      hw
  | true => cases op <;> first | exact within_of_zero rfl | cases hreload

end

end Buffer

namespace Session

/-- No frontier is past the end of its buffer. -/
def Within (s : Session) : Prop :=
  ∀ e ∈ s.buffers, e.2.Within s.shared

/-- A step replaces the text of a buffer under its open transaction. -/
def Reloads (s : Session) (op : Op) : Prop :=
  ∃ name bop b, op = .buffer name bop ∧ bop.reloads = true ∧ s.buffers.lookup name = some b ∧
    b.store.editing = true

/-- A step closes a transaction whose window ends past the text, and is granted a reset. -/
def Overshoots (s : Session) (op : Op) : Prop :=
  ∃ name b c, op = .buffer name .editEnd ∧ s.buffers.lookup name = some b ∧
    b.entered s.shared .editEnd = some c ∧ c.resets = true ∧ b.lineCount < c.last

section
variable {s : Session} (h : s.Orderly) {op : Op}
include h

/-- What holds of a new buffer, and is kept by the operation that a step is and by whatever else may
happen to a buffer, holds of every buffer after the step. -/
theorem forall_step {P : Buffer → Shared → Prop} (hall : ∀ e ∈ s.buffers, P e.2 s.shared)
    (hasked : ∀ b shared, (s.shared.pending b.slot = true → shared.pending b.slot = true) →
      P b s.shared → P b shared)
    (hused : ∀ name bop b, op = .buffer name bop → s.buffers.lookup name = some b →
      P (runOnBuffer b s.shared bop).buffer (runOnBuffer b s.shared bop).shared)
    (hgiven : ∀ b k, P b s.shared → P (b.setHandle k) s.shared)
    (hopened : ∀ b shared, b.frontier = 0 → b.store.editing = false → P b shared) :
    ∀ e ∈ (s.step op).2.buffers, P e.2 (s.step op).2.shared := by
  intro e he
  cases came_step h op he with
  | stayed hold _ hpending =>
    exact hasked e.2 _ (fun hp => by rw [hpending, hp, Bool.true_or]) (hall e hold)
  | used hb hop hbuffer hshared =>
    rw [hbuffer, hshared]
    exact hused e.1 _ _ hop hb
  | given k hmem _ hbuffer hshared =>
    rw [hbuffer, hshared]
    exact hgiven _ k (hall _ hmem)
  | opened _ hnew => exact hopened _ _ hnew.frontier hnew.closed

omit h in
theorem within_asked (b : Buffer) (shared : Shared)
    (hasked : s.shared.pending b.slot = true → shared.pending b.slot = true)
    (hw : b.Within s.shared) : b.Within shared := by
  unfold Buffer.Within Buffer.highlightedUpTo at hw ⊢
  split
  · exact Nat.zero_le _
  · next hp => rwa [if_neg fun hold => hp (hasked hold)] at hw

/-- A step that does not overshoot leaves every frontier within its buffer. -/
theorem within_step (hw : s.Within) (hop : ¬s.Overshoots op) : (s.step op).2.Within := by
  refine forall_step h hw within_asked ?_ (fun b k => (Buffer.stays_setHandle b _ k).within)
    fun _ _ hzero _ => Buffer.within_of_zero hzero
  rintro name bop b rfl hb
  refine Buffer.within_runOnBuffer (h.buffers _ (mem_of_lookup hb)) bop ?_ (hw _ (mem_of_lookup hb))
  rintro c hc rfl hr
  exact Nat.not_lt.1 fun hlt => hop ⟨name, b, c, rfl, hb, hc, hr, hlt⟩

/-- A step that overshoots does not. -/
theorem not_within_step (hop : s.Overshoots op) : ¬(s.step op).2.Within := by
  obtain ⟨name, b, c, rfl, hb, hc, hr, hlt⟩ := hop
  obtain ⟨ho, hreset⟩ := c.resets_iff.1 hr
  have hentered := Buffer.enters_of_entered (h.buffers _ (mem_of_lookup hb)) hc
  have hgranted := c.granted_run hentered.ready ho hreset
  rw [← hentered.run] at hgranted
  intro hw
  have hmem : (name, (runOnBuffer b s.shared .editEnd).buffer) ∈
      (s.step (.buffer name .editEnd)).2.buffers := by
    simp [step, withBuffer, hb, store, put]
  have hshared : (s.step (.buffer name .editEnd)).2.shared =
      (runOnBuffer b s.shared .editEnd).shared := by
    simp [step, withBuffer, hb, store]
  have hcount : (runOnBuffer b s.shared .editEnd).buffer.lineCount = b.lineCount := by
    rw [← Buffer.texts_length, hgranted.texts, hentered.texts, Buffer.texts_length]
  have hover := hw _ hmem
  rw [hshared, Buffer.Within, hgranted.highlightedUpTo, hcount] at hover
  omega

theorem within_step_iff (hw : s.Within) : (s.step op).2.Within ↔ ¬s.Overshoots op :=
  ⟨fun hwithin hop => not_within_step h hop hwithin, within_step h hw⟩

/-- A step that replaces no text under an open transaction also leaves each window in its text. -/
theorem bounded_step (hall : ∀ e ∈ s.buffers, e.2.Within s.shared ∧ e.2.store.Bounded)
    (hop : ¬s.Reloads op) : ∀ e ∈ (s.step op).2.buffers,
      e.2.Within (s.step op).2.shared ∧ e.2.store.Bounded := by
  refine forall_step h (P := fun b shared => b.Within shared ∧ b.store.Bounded) hall
    (fun b shared hasked hb => ⟨within_asked b shared hasked hb.1, hb.2⟩) ?used ?given
    fun _ _ hzero hclosed => ⟨Buffer.within_of_zero hzero, .of_closed hclosed⟩
  case given =>
    intro b k hb
    have hstays := b.stays_setHandle s.shared k
    exact ⟨hstays.within hb.1, hstays.bounded hb.2⟩
  case used =>
    rintro name bop b rfl hb
    have hmem := mem_of_lookup hb
    obtain ⟨hw, hbounded⟩ := hall _ hmem
    have hstays := Buffer.stays_runOnBuffer (h.buffers _ hmem) bop (fun hreload => ?_) ?_
    · exact ⟨hstays.within hw, hstays.bounded hbounded⟩
    · exact Bool.eq_false_iff.2 fun he => hop ⟨name, bop, b, rfl, hreload, hb, he⟩
    · rintro c hc rfl -
      obtain ⟨first, last, k, -, hlast, -, hone, -, rfl⟩ := Buffer.entered_editEnd hc
      have hone : b.store.depth = 1 := hone
      exact hbounded (by simp [TextStore.editing, hone]) last hlast

end

theorem bounded_after (resetDelay : Nat) (settings : Settings) (sums : Sums) (ops : List Op)
    (hops : ∀ past op rest, ops = past ++ op :: rest →
      ¬((start resetDelay settings sums).after past).Reloads op) :
    ∀ e ∈ ((start resetDelay settings sums).after ops).buffers,
      e.2.Within ((start resetDelay settings sums).after ops).shared ∧ e.2.store.Bounded := by
  induction ops using List.reverseRecOn with
  | nil => exact fun e he => by cases he
  | append_singleton ops op ih =>
    have hbefore := ih fun past op' rest heq => hops past op' (rest ++ [op]) (by simp [heq])
    rw [after_concat]
    exact bounded_step (reachable_after resetDelay settings ops).orderly hbefore
      (hops ops op [] rfl)

/-- **The frontier stays within the buffer**, except after a transaction that was closed with a
window past the end of the text and a reset granted; and no session that replaces no text under an
open transaction comes to that. -/
theorem highlightedUpTo_le_lineCount (resetDelay : Nat) (settings : Settings) (sums : Sums)
    (ops : List Op) :
    (∀ op, ((start resetDelay settings sums).after ops).Within →
      ((((start resetDelay settings sums).after ops).step op).2.Within ↔
        ¬((start resetDelay settings sums).after ops).Overshoots op)) ∧
    ((∀ past op rest, ops = past ++ op :: rest →
        ¬((start resetDelay settings sums).after past).Reloads op) →
      ((start resetDelay settings sums).after ops).Within) :=
  ⟨fun _ hw => within_step_iff (reachable_after resetDelay settings ops).orderly hw,
    fun hops e he => (bounded_after resetDelay settings sums ops hops e he).1⟩

/-- Inside a transaction, line 0 is split, so that lines 0 and 1 are the changed ones, while as many
contexts are in use as there is room for; more may follow. -/
def splitThen (ops : List Op) : List Op :=
  [.define "braces" (.ok .braces) false, .newBuffer "text" (some "a") (some ⟨1, 0, 8, 0⟩),
    .useHandle "text" "braces", .intern "a", .buffer "text" .editStart,
    .buffer "text" (.wrap 0 0)] ++ ops

theorem highlightedUpTo_le_lineCount_emptied :
    ((start 0 .standard).after (splitThen [])).Within ∧
    ((start 0 .standard).after (splitThen [.buffer "text" .editEnd])).Within ∧
    ¬((((start 0 .standard).after (splitThen [.buffer "text" .clear])).step
        (.buffer "text" .editEnd)).2.Within) := by
  have hsplit : ∀ ops, (∀ op ∈ ops, ∀ name bop, op = .buffer name bop → bop.reloads = false) →
      ((start 0 .standard).after (splitThen ops)).Within := by
    intro ops hops
    refine (highlightedUpTo_le_lineCount 0 .standard .wrapping (splitThen ops)).2
      fun past op rest heq => ?_
    rintro ⟨name, bop, b, rfl, hreload, -⟩
    have hmem : .buffer name bop ∈ splitThen ops := by simp [heq]
    rcases List.mem_append.1 hmem with hmem | hmem
    · have hbop : name = "text" ∧ bop = .editStart ∨ name = "text" ∧ bop = .wrap 0 0 := by
        simpa using hmem
      rcases hbop with ⟨-, rfl⟩ | ⟨-, rfl⟩ <;> cases hreload
    · rw [hops _ hmem name bop rfl] at hreload
      cases hreload
  have hcleared : ((start 0 .standard).after (splitThen [.buffer "text" .clear])).Within := by
    have hiff := (highlightedUpTo_le_lineCount 0 .standard .wrapping (splitThen [])).1
      (.buffer "text" .clear) (hsplit [] (by simp))
    exact hiff.2 fun ⟨_, _, _, hop, _⟩ => by cases hop
  have hcall : ((start 0 .standard).after (splitThen [.buffer "text" .clear])).buffers.all (fun e =>
      (e.2.entered ((start 0 .standard).after (splitThen [.buffer "text" .clear])).shared
        .editEnd).any fun c => c.resets && decide (e.2.lineCount < c.last)) = true := by
    decide +kernel
  obtain ⟨b, hb⟩ : ∃ b, ((start 0 .standard).after (splitThen [.buffer "text" .clear])).buffers =
      [("text", b)] := ⟨_, rfl⟩
  rw [hb, List.all_cons, List.all_nil, Bool.and_true, Option.any_eq_true] at hcall
  obtain ⟨c, hc, hcall⟩ := hcall
  rw [Bool.and_eq_true, decide_eq_true_eq] at hcall
  refine ⟨hsplit [] (by simp), hsplit _ (by simp [BufferOp.reloads]), fun hw => ?_⟩
  refine ((highlightedUpTo_le_lineCount 0 .standard .wrapping
    (splitThen [.buffer "text" .clear])).1 _ hcleared).1 hw ⟨"text", b, c, rfl, ?_, hc, hcall.1, hcall.2⟩
  rw [hb]
  rfl

end Session

end Highlighting

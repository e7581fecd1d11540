import Highlighting.Proofs.Overflow

/-!
# How buffers answer rebuilds

A buffer that is asked to rebuild tells of it once: by an event, when it has answered, and until
then it is pending.  What an operation of a buffer does to the rebuilds that it has yet to tell of,
and to those of the other buffers, is said once, in `Answers`, which composes:

    untold after  =  untold before + resets granted to the buffer             (Answers.untold)
    another buffer has one pending  ↔  it had, or a reset was granted          (Answers.others)
    no pass entered, nothing highlighted before  →  nothing after               (Answers.idle)

Every operation answers for the passes that it enters            (answers_runOnBuffer), and taking
the events tells of all there was to tell of                      (answers_takeEvents).
-/

namespace Highlighting

namespace Buffer

/-- The passes that are entered while some lines are asked for, one after the other. -/
def callsAsking (b : Buffer) (s : Shared) : List Nat → List PassCall
  | [] => []
  | line :: lines =>
    (b.entered s (.ensure line b.lookahead)).toList ++
      callsAsking (b.ensure s line b.lookahead).buffer (b.ensure s line b.lookahead).shared lines

/-- The passes that an operation enters, in order. -/
def calls (b : Buffer) (s : Shared) : BufferOp → List PassCall
  | .fold line => b.callsAsking s (b.foldAsks s line)
  | .folds => b.callsAsking s (b.foldEachAsks s b.lineCount 0)
  | op => (b.entered s op).toList

/-- How many rebuilds the buffer has yet to tell of: those it has answered since its events were
taken, and the one that is pending. -/
def untold (b : Buffer) (s : Shared) : Nat :=
  b.events.count .rebuilt + if s.pending b.slot then 1 else 0

/-- What an operation that enters these passes may do to the rebuilds that are to be told of. -/
structure Answers (b : Buffer) (s : Shared) (calls : List PassCall) (b' : Buffer) (s' : Shared) :
    Prop where
  slot : b'.slot = b.slot
  registered : s'.registered = s.registered
  untold : b'.untold s' = b.untold s + calls.countP (·.resets)
  others : ∀ slot ∈ s.registered, slot ≠ b.slot →
    s'.pending slot = (s.pending slot || calls.any (·.resets))
  idle : calls = [] → b.highlightedUpTo s = 0 → b'.highlightedUpTo s' = 0

namespace Answers

variable {b b' b'' : Buffer} {s s' s'' : Shared} {calls calls' : List PassCall}

theorem trans (h : b.Answers s calls b' s') (k : b'.Answers s' calls' b'' s'') :
    b.Answers s (calls ++ calls') b'' s'' where
  slot := k.slot.trans h.slot
  registered := k.registered.trans h.registered
  untold := by rw [k.untold, h.untold, List.countP_append, Nat.add_assoc]
  others slot hslot hne := by
    rw [k.others slot (h.registered.symm ▸ hslot) (h.slot.symm ▸ hne), h.others slot hslot hne,
      List.any_append, Bool.or_assoc]
  idle hnone hzero := by
    obtain ⟨hcalls, hcalls'⟩ := List.append_eq_nil_iff.1 hnone
    exact k.idle hcalls' (h.idle hcalls hzero)

/-- No other buffer is asked, nothing is told, and nothing is highlighted that was not. -/
theorem quiet (hslot : b'.slot = b.slot) (hevents : b'.events.count .rebuilt =
    b.events.count .rebuilt) (hzero : b.frontier = 0 → b'.frontier = 0) :
    b.Answers s [] b' s where
  slot := hslot
  registered := rfl
  untold := by simp [Buffer.untold, hslot, hevents]
  others _ _ _ := by simp
  idle _ h := by
    unfold highlightedUpTo at h ⊢
    rw [hslot]
    split
    · rfl
    · next hp =>
      rw [if_neg hp] at h
      exact hzero h

theorem refl (b : Buffer) (s : Shared) : b.Answers s [] b s :=
  .quiet rfl rfl id

end Answers

/-! ## Answering and passing -/

theorem answers_sync (b : Buffer) (s : Shared) : b.Answers s [] (b.sync s).1 (b.sync s).2 := by
  rcases b.sync_cases s with ⟨hp, hs⟩ | ⟨hp, hs⟩ <;> rw [hs]
  · refine ⟨rfl, s.registered_takeRebuild _, ?_, ?_, ?_⟩
    · simp [untold, rebuilt, s.pending_takeRebuild_self b.slot, hp]
    · intro slot _ hne
      simp [s.pending_takeRebuild_of_ne b.slot slot hne]
    · intro _ _
      simp [highlightedUpTo, rebuilt, s.pending_takeRebuild_self b.slot]
  · refine ⟨rfl, s.registered_takeRebuild _, ?_, ?_, ?_⟩
    · simp [untold, s.pending_takeRebuild_self b.slot, hp]
    · intro slot _ hne
      simp [s.pending_takeRebuild_of_ne b.slot slot hne]
    · intro _ hzero
      simpa [highlightedUpTo, s.pending_takeRebuild_self b.slot, hp] using hzero

/-- The pass that an operation enters once a pending rebuild has been answered. -/
theorem answers_run (c : PassCall) (hc : c.Ready) :
    c.buffer.Answers c.shared [c] c.run.buffer c.run.shared := by
  have hidle : [c] = [] → c.buffer.highlightedUpTo c.shared = 0 →
      c.run.buffer.highlightedUpTo c.run.shared = 0 := fun h => by cases h
  rcases c.run_cases hc with ⟨hr, hrun⟩ | ⟨hr, frontier, news, limit, since, pauses, hrun, -, hnews⟩
  · have hself := c.shared.pending_granted_self c.buffer.slot
    rw [hrun] at hidle ⊢
    refine ⟨rfl, c.shared.registered_granted c.buffer.slot, ?_, ?_, hidle⟩
    · show (c.buffer.events ++ [Event.rebuilt]).count .rebuilt +
        (if (c.shared.granted c.buffer.slot).pending c.buffer.slot then 1 else 0) = _
      simp [untold, hself, hc.pending, hr]
    · intro slot hslot hne
      show (c.shared.granted c.buffer.slot).pending slot = _
      simp [c.shared.pending_granted_of_ne c.buffer.slot slot hslot hne, hr]
  · rw [hrun] at hidle ⊢
    refine ⟨rfl, rfl, ?_, ?_, hidle⟩
    · show (c.buffer.events ++ news).count .rebuilt +
        (if c.shared.pending c.buffer.slot then 1 else 0) = _
      simp [untold, hr, List.count_eq_zero.2 hnews.rebuilt_not_mem]
    · intro slot _ _
      show c.shared.pending slot = _
      simp [hr]

section
variable {b : Buffer} {s : Shared} (h : b.Orderly s)

/-! ## Operations -/

/-- An operation answers for the pass that it enters, if it has answered for what comes before. -/
theorem answers_entered {op : BufferOp} {c : PassCall} (hc : c.EnteredBy b s op)
    (hbefore : b.Answers s [] c.buffer c.shared) :
    b.Answers s [c] (Session.runOnBuffer b s op).buffer (Session.runOnBuffer b s op).shared := by
  rw [hc.run]
  exact hbefore.trans (answers_run c hc.ready)

include h in
theorem answers_ensure (line lookahead : Nat) :
    b.Answers s (b.entered s (.ensure line lookahead)).toList
      (b.ensure s line lookahead).buffer (b.ensure s line lookahead).shared := by
  cases hc : b.entered s (.ensure line lookahead) with
  | none =>
    obtain ⟨result, hrun⟩ := ensure_of_entered_none hc
    rw [hrun]
    exact answers_sync b s
  | some c =>
    refine answers_entered (enters_ensure h hc) ?_
    obtain ⟨k, last, -, -, -, -, rfl⟩ := entered_ensure hc
    exact answers_sync b s

theorem answers_closed (b : Buffer) (s : Shared) : b.Answers s [] b.closed s :=
  .quiet rfl rfl id

include h in
theorem answers_editEnd : b.Answers s (b.entered s .editEnd).toList
    (b.editEnd s).buffer (b.editEnd s).shared := by
  cases hc : b.entered s .editEnd with
  | none =>
    rcases editEnd_of_entered_none h hc with he | he | he <;> rw [he]
    · exact .refl b s
    · exact .quiet rfl rfl id
    · exact (answers_closed b s).trans (answers_sync b.closed s)
  | some c =>
    refine answers_entered (enters_editEnd h hc) ?_
    obtain ⟨first, last, k, -, -, -, -, -, rfl⟩ := entered_editEnd hc
    exact (answers_closed b s).trans (answers_sync b.closed s)

include h in
theorem answers_asked (lines : List Nat) :
    b.Answers s (b.callsAsking s lines) (b.asked s lines).1 (b.asked s lines).2 := by
  induction lines generalizing b s with
  | nil => exact .refl b s
  | cons line lines ih =>
    exact (answers_ensure h line b.lookahead).trans (ih (keeps_ensure h line b.lookahead).orderly)

include h in
theorem answers_searches {α : Type} {lines : List Nat} {o : Outcome α}
    (k : b.Searches s lines o) : b.Answers s (b.callsAsking s lines) o.buffer o.shared := by
  have hanswers := answers_asked h lines
  rw [k] at hanswers
  exact hanswers

theorem answers_edited {b b' : Buffer} {s s' : Shared} (he : b.Edited s b' s') :
    b.Answers s [] b' s' := by
  have hsync := answers_sync b s
  cases he with
  | same => exact .refl b s
  | refused => exact hsync
  | retext hsplice => exact .quiet rfl rfl id
  | wrapped hsplice =>
    refine hsync.trans (.quiet rfl rfl fun hzero => ?_)
    dsimp only
    rw [if_neg (by omega), hzero]
  | unwrapped hsplice =>
    refine hsync.trans (.quiet rfl rfl fun hzero => ?_)
    dsimp only
    rw [if_neg (by omega), hzero]

theorem answers_unwrapLines (b : Buffer) (s : Shared) (first last : Nat) :
    b.Answers s [] (b.unwrapLines s first last).buffer (b.unwrapLines s first last).shared :=
  chain_unwrapLines (R := fun b s b' s' => b.Answers s [] b' s') .refl .trans
    (fun b s line => answers_edited (b.edited_unwrap s line)) b s first last

theorem answers_setTabWidth (b : Buffer) (s : Shared) (width : Nat) :
    b.Answers s [] (b.setTabWidth width) s := by
  obtain ⟨tab, frontier, he, hfrontier⟩ := b.setTabWidth_cases width
  rw [he]
  exact .quiet rfl rfl fun hzero => hfrontier.elim id (·.trans hzero)

theorem answers_setHandle (b : Buffer) (s : Shared) (k : Handle) :
    b.Answers s [] (b.setHandle k) s := by
  rcases b.setHandle_cases k with he | ⟨frontier, mode, he, hfrontier⟩ <;> rw [he]
  · exact .refl b s
  · refine .quiet rfl ?_ fun hzero => hfrontier.elim id (·.1.trans hzero)
    rw [List.count_append, Nat.add_eq_left]
    rfl

include h in
/-- Every operation but the taking of events answers for the passes that it enters. -/
theorem answers_runOnBuffer (op : BufferOp) (hop : op ≠ .takeEvents) :
    b.Answers s (b.calls s op) (Session.runOnBuffer b s op).buffer
      (Session.runOnBuffer b s op).shared := by
  cases op with
  | setText text => exact .quiet rfl rfl fun _ => rfl
  | clear => exact .quiet rfl rfl fun _ => rfl
  | editStart => exact .quiet rfl rfl id
  | editEnd => exact answers_editEnd h
  | insert line col text => exact answers_edited (b.edited_insert s line col text)
  | remove line start stop => exact answers_edited (b.edited_remove s line start stop)
  | wrap line col => exact answers_edited (b.edited_wrap s line col)
  | unwrap line => exact answers_edited (b.edited_unwrap s line)
  | unwrapLines first last => exact answers_unwrapLines b s first last
  | invalidate => exact .quiet rfl rfl fun _ => rfl
  | setTabWidth width => exact answers_setTabWidth b s width
  | ensure line lookahead => exact answers_ensure h line lookahead
  | fold line => exact answers_searches h (searches_foldRange b s line)
  | folds => exact answers_searches h (searches_foldEach b s b.lineCount 0)
  | line n => exact .refl b s
  | dump => exact .refl b s
  | text => exact .refl b s
  | takeEvents => exact absurd rfl hop

/-- Taking the events tells of every rebuild that there was to tell of, and of no other. -/
theorem answers_takeEvents (b : Buffer) (s : Shared) :
    (b.takeEvents s).1.count .rebuilt = b.untold s ∧
      b.Answers s [] { (b.takeEvents s).2.1 with events := (b.takeEvents s).1 }
        (b.takeEvents s).2.2 ∧
      (b.takeEvents s).2.1.untold (b.takeEvents s).2.2 = 0 := by
  have hsync := answers_sync b s
  have hpending := b.pending_sync s
  refine ⟨?_, hsync, ?_⟩
  · have huntold := hsync.untold
    simpa [untold, hpending, takeEvents] using huntold
  · show List.count _ [] + (if (b.sync s).2.pending (b.sync s).1.slot then 1 else 0) = 0
    simp [hpending]

include h in
/-- What an operation does to the rebuilds that are pending for the other buffers. -/
theorem pending_runOnBuffer (op : BufferOp) (slot : Nat) (hslot : slot ∈ s.registered)
    (hne : slot ≠ b.slot) :
    (Session.runOnBuffer b s op).shared.pending slot =
      (s.pending slot || (b.calls s op).any (·.resets)) := by
  by_cases hop : op = .takeEvents
  · subst hop
    exact (answers_takeEvents b s).2.1.others slot hslot hne
  · exact (answers_runOnBuffer h op hop).others slot hslot hne

end

end Buffer

end Highlighting

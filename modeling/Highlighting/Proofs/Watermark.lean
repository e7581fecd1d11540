import Highlighting.Proofs.Answering
import Highlighting.Proofs.Locality
import Highlighting.Proofs.Strides

/-!
# When less is highlighted than before

The watermark of a buffer, how far it is highlighted, goes back when all of it is to be made again,
when lines are joined, and in one case more: when closing a transaction highlights a stretch of
lines whose last one ends in another state than before, so that all lines after it are stale.

    b.Rises b' s'                                   →  as far as before, or further
                                                                                     (Rises.le)
    any edit but the joining of lines               →  rises  (rises_withStore, rises_wrap)
    asking for lines                                →  rises                      (rises_asked)
    closing a transaction that highlights nothing   →  as far as before
                                                                     (highlightedUpTo_of_quiet)
    closing one that highlights as far as `stop`:
      the last line ends as before                  →  the larger of `stop` and before
      the last line ends in another state           →  `stop`    (highlightedUpTo_of_not_quiet)
    any operation, in any reachable session         →  one of these            (watermark_step)

All this goes for operations that find no rebuild pending and are granted no reset.
-/

namespace Highlighting

/-- Does the operation replace the text, join lines, or ask for all of it to be highlighted
again? -/
def BufferOp.lowers : BufferOp → Bool
  | .setText _ | .clear | .invalidate | .setTabWidth _ | .unwrap _ | .unwrapLines _ _ => true
  | _ => false

namespace PassCall

/-- Where the frontier goes in a pass that is granted no reset: to the end of the window if its last
line ends in another state than before, and else forward or nowhere. -/
theorem frontier_run (c : PassCall) (hc : c.Ready) (hr : c.resets = false)
    (hfirst : c.first < c.buffer.lineCount) (hle : c.first ≤ c.last) :
    ∃ x y, c.buffer.lineList[min (c.last + 1) c.buffer.lineCount - 1]? = some x ∧
      c.run.buffer.lineList[min (c.last + 1) c.buffer.lineCount - 1]? = some y ∧
      c.run.buffer.frontier =
        if x.endState = y.endState then
          max c.buffer.frontier (min (c.last + 1) c.buffer.lineCount)
        else min (c.last + 1) c.buffer.lineCount := by
  unfold run
  by_cases ho : c.buffer.overflows c.shared = true
  · have hrefused : c.shared.reset.1 = false := by simpa [resets, ho] using hr
    rw [c.buffer.pass_refused c.shared c.handle c.first c.last c.report hc.handle ho hrefused]
    exact Buffer.frontier_window { c.buffer with limit := c.buffer.limit * 2 } c.shared.reset.2
      c.handle c.first c.last c.report hfirst hle
  · rw [c.buffer.pass_room c.shared c.handle c.first c.last c.report hc.handle (by simpa using ho)]
    exact c.buffer.frontier_window c.shared c.handle c.first c.last c.report hfirst hle

/-- No rebuild is pending after a pass, whichever course it took. -/
theorem answered_run (c : PassCall) (hc : c.Ready) :
    c.run.shared.pending c.run.buffer.slot = false := by
  rcases c.run_cases hc with ⟨-, hrun⟩ | ⟨-, frontier, news, limit, since, pauses, hrun, -⟩ <;>
    rw [hrun]
  · exact c.shared.pending_granted_self c.buffer.slot
  · exact hc.pending

end PassCall

namespace Buffer

/-- No rebuild is pending afterwards, and the frontier has not moved back. -/
structure Rises (b b' : Buffer) (s' : Shared) : Prop where
  answered : s'.pending b'.slot = false
  frontier_le : b.frontier ≤ b'.frontier

namespace Rises

variable {b b' b'' : Buffer} {s s' s'' : Shared}

theorem refl (hp : s.pending b.slot = false) : b.Rises b s :=
  ⟨hp, Nat.le_refl _⟩

theorem trans (h : b.Rises b' s') (k : b'.Rises b'' s'') : b.Rises b'' s'' :=
  ⟨k.answered, Nat.le_trans h.frontier_le k.frontier_le⟩

theorem le (h : b.Rises b' s') (s : Shared) : b.highlightedUpTo s ≤ b'.highlightedUpTo s' := by
  rw [b'.highlightedUpTo_of_answered s' h.answered]
  exact Nat.le_trans (b.highlightedUpTo_le s) h.frontier_le

end Rises

section
variable {b : Buffer} {s : Shared} (hp : s.pending b.slot = false)
include hp

/-! ## Edits -/

theorem rises_withStore {α : Type} (r : Except Refusal (α × TextStore)) :
    b.Rises (b.withStore s r).buffer (b.withStore s r).shared := by
  cases r with
  | error r => exact .refl hp
  | ok out => exact ⟨hp, Nat.le_refl _⟩

/-- Splitting a line moves the frontier along with the lines after it. -/
theorem rises_wrap (line col : Nat) :
    b.Rises (b.wrap s line col).buffer (b.wrap s line col).shared := by
  unfold wrap
  rw [b.sync_of_answered s hp]
  dsimp only
  cases b.store.wrap line col with
  | error r => exact .refl hp
  | ok t =>
    constructor
    · exact hp
    · show b.frontier ≤ if line + 1 < b.frontier then b.frontier + 1 else b.frontier
      split <;> omega

/-! ## Asking for lines -/

variable (h : b.Orderly s)
include h

theorem rises_ensure (line lookahead : Nat) (hr : b.Unreset s (.ensure line lookahead)) :
    b.Rises (b.ensure s line lookahead).buffer (b.ensure s line lookahead).shared := by
  have hsync := b.sync_of_answered s hp
  cases hc : b.entered s (.ensure line lookahead) with
  | none =>
    obtain ⟨result, hrun⟩ := ensure_of_entered_none hc
    rw [hrun, hsync]
    exact .refl hp
  | some c =>
    have hready := (enters_ensure h hc).ready
    rw [ensure_of_entered hc]
    rcases c.run_cases hready with ⟨hresets, -⟩ |
      ⟨-, frontier, news, limit, since, pauses, hrun, hfrontier, -⟩
    · rw [hr c hc] at hresets
      cases hresets
    · obtain ⟨k, last, -, -, -, -, rfl⟩ := entered_ensure hc
      rw [hrun, hsync]
      rw [hsync] at hfrontier
      dsimp only at hfrontier
      constructor
      · exact hp
      · -- the window begins at the frontier
        show b.frontier ≤ frontier
        omega

/-- Asking for several lines is asking for each of them. -/
theorem rises_asked (lines : List Nat) (hr : ∀ c ∈ b.callsAsking s lines, c.resets = false) :
    b.Rises (b.asked s lines).1 (b.asked s lines).2 := by
  induction lines generalizing b s with
  | nil => exact .refl hp
  | cons line lines ih =>
    have hone := rises_ensure hp h line b.lookahead fun c hc =>
      hr c (List.mem_append_left _ (by simp [hc]))
    exact hone.trans (ih hone.answered (keeps_ensure h line b.lookahead).orderly
      fun c hc => hr c (List.mem_append_right _ hc))

theorem rises_searches {α : Type} {lines : List Nat} {o : Outcome α} (k : b.Searches s lines o)
    (hr : ∀ c ∈ b.callsAsking s lines, c.resets = false) : b.Rises o.buffer o.shared := by
  have hrises := rises_asked hp h lines hr
  rw [k] at hrises
  exact hrises

/-! ## Closing a transaction -/

theorem highlightedUpTo_of_quiet (hquiet : b.Quiet s) :
    (b.editEnd s).buffer.highlightedUpTo (b.editEnd s).shared = b.highlightedUpTo s := by
  rw [editEnd_of_quiet h hp hquiet]
  rfl

/-- Closing a transaction that has changed lines up to `last` highlights one line more.  Only that
line decides how far the buffer is highlighted afterwards. -/
theorem highlightedUpTo_of_not_quiet (hquiet : ¬b.Quiet s) (hr : b.Unreset s .editEnd) :
    ∃ last x y, b.store.last = some last ∧
      b.lineList[min (last + 2) b.lineCount - 1]? = some x ∧
      (b.editEnd s).buffer.lineList[min (last + 2) b.lineCount - 1]? = some y ∧
      (b.editEnd s).buffer.highlightedUpTo (b.editEnd s).shared =
        if x.endState = y.endState then max (b.highlightedUpTo s) (min (last + 2) b.lineCount)
        else min (last + 2) b.lineCount := by
  obtain ⟨k, first, last, -, -, hlast, hle, hlt, hc⟩ := entered_of_not_quiet h hp hquiet
  have hready := (enters_editEnd h hc).ready
  obtain ⟨x, y, hx, hy, hfrontier⟩ := PassCall.frontier_run _ hready (hr _ hc) hlt
    (show first - 1 ≤ last + 1 by omega)
  have hanswered := PassCall.answered_run _ hready
  rw [← editEnd_of_entered h hc] at hy hfrontier hanswered
  refine ⟨last, x, y, hlast, hx, hy, ?_⟩
  rw [highlightedUpTo_of_answered _ _ hanswered, b.highlightedUpTo_of_answered s hp]
  exact hfrontier

/-! ## Any operation -/

/-- What may lower the watermark is the closing of a transaction and those operations that are meant
to. -/
theorem rises_runOnBuffer (op : BufferOp) (hop : op.lowers = false) (hend : op ≠ .editEnd)
    (hr : ∀ c ∈ b.calls s op, c.resets = false) :
    b.Rises (Session.runOnBuffer b s op).buffer (Session.runOnBuffer b s op).shared := by
  cases op with
  | setText text => cases hop
  | clear => cases hop
  | editStart => exact ⟨hp, Nat.le_refl _⟩
  | editEnd => exact absurd rfl hend
  | insert line col text =>
    exact rises_withStore hp ((b.store.insert line col text).map fun t => ((), t))
  | remove line start stop => exact rises_withStore hp (b.store.remove line start stop)
  | wrap line col => exact rises_wrap hp line col
  | unwrap line => cases hop
  | unwrapLines first last => cases hop
  | invalidate => cases hop
  | setTabWidth width => cases hop
  | ensure line lookahead =>
    exact rises_ensure hp h line lookahead fun c hc => hr c (by simp [calls, hc])
  | fold line => exact rises_searches hp h (searches_foldRange b s line) hr
  | folds => exact rises_searches hp h (searches_foldEach b s b.lineCount 0) hr
  | line n => exact .refl hp
  | dump => exact .refl hp
  | text => exact .refl hp
  | takeEvents =>
    show b.Rises (b.takeEvents s).2.1 (b.takeEvents s).2.2
    rw [takeEvents, b.sync_of_answered s hp]
    exact ⟨hp, Nat.le_refl _⟩

end

end Buffer

namespace Session

/-- **Less is highlighted than before only when it has to be.**  In every session, an operation of a
buffer that does not replace its text, join its lines or ask for all of it to be highlighted again
leaves it highlighted as far as it was, or further.  Only closing a transaction may not, when it
highlights anything: then the last line of what it highlights decides.  If that line ends in the
state in which it ended before, the buffer is highlighted as far as it was, or up to that line if
that is further; and else up to that line.  This goes for operations that find no rebuild pending
and are granted no reset. -/
theorem watermark_step {s : Session} (hs : s.Reachable) {name : String} {b : Buffer}
    (hb : s.buffers.lookup name = some b) (hp : s.shared.pending b.slot = false) (op : BufferOp)
    (hop : op.lowers = false) (hr : ∀ c ∈ b.calls s.shared op, c.resets = false) :
    ∃ b', (s.step (.buffer name op)).2.buffers.lookup name = some b' ∧
      (op ≠ .editEnd ∨ b.Quiet s.shared →
        b.highlightedUpTo s.shared ≤
          b'.highlightedUpTo (s.step (.buffer name op)).2.shared) ∧
      (op = .editEnd → ¬b.Quiet s.shared → ∃ last x y, b.store.last = some last ∧
        b.lineList[min (last + 2) b.lineCount - 1]? = some x ∧
        b'.lineList[min (last + 2) b.lineCount - 1]? = some y ∧
        b'.highlightedUpTo (s.step (.buffer name op)).2.shared =
          if x.endState = y.endState then
            max (b.highlightedUpTo s.shared) (min (last + 2) b.lineCount)
          else min (last + 2) b.lineCount) := by
  have h := hs.orderly.buffers _ (mem_of_lookup hb)
  rw [step_buffer hb]
  refine ⟨_, lookup_put name _ s.buffers, ?_, ?_⟩
  · intro hcase
    show b.highlightedUpTo s.shared ≤ Buffer.highlightedUpTo
      (runOnBuffer b s.shared op).buffer (runOnBuffer b s.shared op).shared
    by_cases hend : op = .editEnd
    · subst hend
      exact Nat.le_of_eq (Buffer.highlightedUpTo_of_quiet hp h (hcase.resolve_left (· rfl))).symm
    · exact (Buffer.rises_runOnBuffer hp h op hop hend hr).le s.shared
  · rintro rfl hquiet
    exact Buffer.highlightedUpTo_of_not_quiet hp h hquiet fun c hc => hr c (by simp [Buffer.calls, hc])

/-- A session with one buffer of four highlighted lines, all inside of a fence, and a transaction
that has taken the opening of the fence away from the first of them. -/
def fenceRemoved : Session :=
  (start 0 .standard).after
    [.define "fenced" (.ok .fenced) false, .newBuffer "text" (some "<=\nb\nc\nd") none,
      .useHandle "text" "fenced", .buffer "text" (.ensure 3 0), .buffer "text" .editStart,
      .buffer "text" (.remove 0 0 1)]

theorem watermark_step_fenceRemoved :
    ∃ b b', fenceRemoved.buffers.lookup "text" = some b ∧
      b.highlightedUpTo fenceRemoved.shared = 4 ∧
      (fenceRemoved.step (.buffer "text" .editEnd)).2.buffers.lookup "text" = some b' ∧
      b'.highlightedUpTo (fenceRemoved.step (.buffer "text" .editEnd)).2.shared = 2 := by
  have hs : fenceRemoved.Reachable := .after (.start 0 .standard) _ (by simp)
  obtain ⟨b, hb⟩ : ∃ b, fenceRemoved.buffers.lookup "text" = some b := ⟨_, rfl⟩
  have hstate : fenceRemoved.buffers.all (fun e =>
      !fenceRemoved.shared.pending e.2.slot && e.2.highlightedUpTo fenceRemoved.shared == 4 &&
        e.2.lineCount == 4 && e.2.store.last == some 0 &&
        e.2.lineList.map (·.endState) == List.replicate 4 ⟨1, some 0⟩ &&
        !decide (e.2.Quiet fenceRemoved.shared) &&
        (e.2.calls fenceRemoved.shared .editEnd).all (!·.resets)) = true := by
    decide +kernel
  have hends : (fenceRemoved.step (.buffer "text" .editEnd)).2.buffers.all (fun e =>
      e.2.lineList.map (·.endState) == [.normal, .normal, ⟨1, some 0⟩, ⟨1, some 0⟩]) = true := by
    decide +kernel
  have hstate := List.all_eq_true.1 hstate _ (mem_of_lookup hb)
  simp only [Bool.and_eq_true, beq_iff_eq, Bool.not_eq_true', decide_eq_false_iff_not] at hstate
  obtain ⟨⟨⟨⟨⟨⟨hp, hupTo⟩, hcount⟩, hlast⟩, hbefore⟩, hquiet⟩, hresets⟩ := hstate
  obtain ⟨b', hb', -, hclose⟩ := watermark_step hs hb hp .editEnd rfl
    fun c hc => Bool.not_eq_true' _ ▸ List.all_eq_true.1 hresets c hc
  obtain ⟨last, x, y, hlast', hx, hy, hwatermark⟩ := hclose rfl hquiet
  obtain rfl := Option.some.inj (hlast.symm.trans hlast')
  have hends := beq_iff_eq.1 (List.all_eq_true.1 hends _ (mem_of_lookup hb'))
  rw [hcount] at hx hy hwatermark
  have hsecond := List.getElem?_map.symm.trans (congrArg (·[1]?) hbefore)
  have hsecond' := List.getElem?_map.symm.trans (congrArg (·[1]?) hends)
  rw [show b.lineList[1]? = some x from hx] at hsecond
  rw [show b'.lineList[1]? = some y from hy] at hsecond'
  have hx : x.endState = ⟨1, some 0⟩ := Option.some.inj hsecond
  have hy : y.endState = .normal := Option.some.inj hsecond'
  rw [hx, hy] at hwatermark
  exact ⟨b, b', hb, hupTo, hb', hwatermark⟩

end Session

end Highlighting

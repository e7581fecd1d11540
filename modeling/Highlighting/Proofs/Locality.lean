import Highlighting.Proofs.Asking
import Highlighting.Proofs.Reporting

/-!
# Edits are local

Highlighting follows an edit only as far as the edit reached.  While no reset is granted and no
rebuild is pending, a pass scans the lines of its window, in order and each once, and leaves every
other line alone:

    a pass                                           →  its window             (rescans_run)
    a transaction that changed lines first to last   →  from one line before them to one after
                                                                           (editEnd_of_not_quiet)
    a quiet transaction                              →  nothing                (editEnd_of_quiet)
    asking for a line at or past the frontier        →  from the frontier on   (ensure_of_le)
    asking for a line before the frontier            →  nothing                (ensure_of_lt)

How far a line that is asked for takes the pass depends on the sum of its number and the lookahead.
One that does not fit is refused, and the call with it (ensure_refused), or it comes out below the
line itself, so that the pass stops before the line.
-/

namespace Highlighting

namespace PassCall

end PassCall

namespace Buffer

/-- Nothing is to be highlighted when the transaction is closed: it is an inner one or none at all,
it has changed nothing, there is no definition to go by, or the changes lie past the frontier. -/
def Quiet (b : Buffer) (s : Shared) : Prop :=
  b.store.depth ≠ 1 ∨ b.store.changed = false ∨ b.handle = none ∨
    ∃ first, b.store.first = some first ∧ b.highlightedUpTo s < first

instance (b : Buffer) (s : Shared) : Decidable (b.Quiet s) :=
  decidable_of_iff (b.store.depth ≠ 1 ∨ b.store.changed = false ∨ b.handle.isNone = true ∨
    b.store.first.any (b.highlightedUpTo s < ·) = true) (by simp [Quiet, Option.any_eq_true])

/-- The operation enters no pass that is granted a reset. -/
def Unreset (b : Buffer) (s : Shared) (op : BufferOp) : Prop :=
  ∀ c, b.entered s op = some c → c.resets = false

section
variable {b : Buffer} {s : Shared} (h : b.Orderly s) (hp : s.pending b.slot = false)
include h hp

/-- Closing a quiet transaction closes it and does nothing else. -/
theorem editEnd_of_quiet (hquiet : b.Quiet s) :
    b.editEnd s = ⟨.ok (), { b with store := { b.store with depth := b.store.depth - 1 } }, s⟩ := by
  rcases editEnd_cases (s := s) h.framed with ⟨hzero, he⟩ | ⟨-, he⟩ | ⟨hone, -, he⟩ |
    ⟨first, last, k, hone, hfirst, hlast, -, hk, he⟩
  · rw [he, show b.store.depth - 1 = b.store.depth by omega]
  · exact he
  · rw [he, closed, hone]
  · have hpast : b.highlightedUpTo s < first := by
      rcases hquiet with hne | hunchanged | hnone | ⟨first', hfirst', hlt⟩
      · exact absurd hone hne
      · rw [(h.framed.unchanged hunchanged).1] at hfirst
        cases hfirst
      · rw [hnone] at hk
        cases hk
      · obtain rfl := Option.some.inj (hfirst.symm.trans hfirst')
        exact hlt
    have hsync : b.closed.sync s = (b.closed, s) := b.closed.sync_of_answered s hp
    have hpast : b.closed.frontier < first := by
      rw [b.highlightedUpTo_of_answered s hp] at hpast
      exact hpast
    rw [he, mend, hsync, if_pos hpast, closed, hone]

/-- Closing any other one enters a pass over the lines that were changed, one line before them and
one after. -/
theorem entered_of_not_quiet (hquiet : ¬b.Quiet s) :
    ∃ k first last, b.handle = some k ∧ b.store.first = some first ∧ b.store.last = some last ∧
      first ≤ last ∧ first - 1 < b.lineCount ∧
      b.entered s .editEnd = some ⟨b.closed, s, k, first - 1, last + 1, true⟩ := by
  simp only [Quiet, not_or, not_not, not_exists, not_and, Bool.not_eq_false, Nat.not_lt] at hquiet
  obtain ⟨hone, hchanged, hhandle, hreach⟩ := hquiet
  obtain ⟨first, last, hfirst, hlast, hle⟩ := h.framed.changed hchanged
  obtain ⟨k, hk⟩ := Option.ne_none_iff_exists'.1 hhandle
  have hsync : b.closed.sync s = (b.closed, s) := b.closed.sync_of_answered s hp
  have hreach : first ≤ b.frontier := by
    rw [← b.highlightedUpTo_of_answered s hp]
    exact hreach first hfirst
  have hwindow := h.window (by simp [TextStore.editing, hone]) first hfirst
  have hpos := h.lineCount_pos
  refine ⟨k, first, last, hk, hfirst, hlast, hle, by omega, ?_⟩
  simp only [entered, hfirst, hlast, hk, hsync]
  exact if_pos ⟨hone, hreach⟩

end

end Buffer

end Highlighting

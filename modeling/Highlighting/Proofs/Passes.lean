import Highlighting.Proofs.Sharing
import Highlighting.Proofs.Window

/-!
# The three courses of a pass

A pass finds room for more contexts, or is granted a reset, or is refused one:

    not b.overflows s               →  one window                                  (pass_room)
    b.overflows s, granted          →  every line from the first on, in an emptied table
                                                                                    (pass_granted)
    b.overflows s, refused          →  one window with the limit doubled           (pass_refused)
    not granted                     →  one window, whatever the limit             (pass_windowed)

What a granted pass does after the reset is a pass of its own, with resets suppressed
(pass_nested).  It finds room, since the table is empty and the limit is not 0, so a pass is never
nested deeper (overflows_granted).
-/

namespace Highlighting

namespace Shared

/-- What is shared when the buffer of a slot, having been granted a reset, has answered the rebuild
that it asked of every buffer. -/
def granted (s : Shared) (slot : Nat) : Shared :=
  ((s.reset.2.suppress true).requestRebuild.takeRebuild slot).2

theorem contexts_granted (s : Shared) (slot : Nat) (h : s.reset.1 = true) :
    (s.granted slot).contexts = s.contexts.emptied := by
  show s.reset.2.contexts = _
  rcases s.reset_cases with ⟨since, pauses, -, hr⟩ | ⟨since, pauses, hr⟩
  · rw [hr]
  · rw [hr] at h; cases h

@[simp] theorem slots_reset (s : Shared) : s.reset.2.slots = s.slots := by
  rcases s.reset_cases with ⟨since, pauses, -, hr⟩ | ⟨since, pauses, hr⟩ <;> rw [hr]

@[simp] theorem nextSlot_reset (s : Shared) : s.reset.2.nextSlot = s.nextSlot := by
  rcases s.reset_cases with ⟨since, pauses, -, hr⟩ | ⟨since, pauses, hr⟩ <;> rw [hr]

@[simp] theorem sums_reset (s : Shared) : s.reset.2.sums = s.sums := by
  rcases s.reset_cases with ⟨since, pauses, -, hr⟩ | ⟨since, pauses, hr⟩ <;> rw [hr]

@[simp] theorem scans_reset (s : Shared) : s.reset.2.scans = s.scans := by
  rcases s.reset_cases with ⟨since, pauses, -, hr⟩ | ⟨since, pauses, hr⟩ <;> rw [hr]

@[simp] theorem registered_granted (s : Shared) (slot : Nat) :
    (s.granted slot).registered = s.registered := by
  rw [granted, registered_takeRebuild, registered_requestRebuild]
  show s.reset.2.registered = _
  rw [registered, slots_reset]
  rfl

theorem pending_granted_self (s : Shared) (slot : Nat) : (s.granted slot).pending slot = false :=
  pending_takeRebuild_self _ _

theorem pending_granted_of_ne (s : Shared) (slot other : Nat) (h : other ∈ s.registered)
    (hne : other ≠ slot) : (s.granted slot).pending other = true := by
  rw [granted, pending_takeRebuild_of_ne _ _ _ hne]
  refine pending_requestRebuild _ _ ?_
  show other ∈ s.reset.2.registered
  rw [registered, slots_reset]
  exact h

/-- A granted reset moves what is shared. -/
theorem moves_granted (s : Shared) (slot : Nat) (h : s.reset.1 = true) :
    Moves slot s (s.granted slot) := by
  have hc : s.reset.2.contexts = s.contexts.emptied := s.contexts_granted slot h
  have hreset : Moves slot s (s.reset.2.suppress true).requestRebuild := by
    refine .requestRebuild ?_ ?_ s.slots_reset s.nextSlot_reset s.sums_reset
    · show s.contexts.nextId ≤ s.reset.2.contexts.nextId
      rw [hc]
      exact Nat.le_refl _
    · intro _
      show s.reset.2.contexts.Sound
      rw [hc]
      exact .emptied _
  exact hreset.trans (.takeRebuild slot _)

/-- A refused reset leaves all but the clock. -/
theorem clock_refused (s : Shared) (h : s.reset.1 = false) :
    ∃ since pauses, s.reset.2 = { s with sinceReset := since, pauses := pauses } := by
  rcases s.reset_cases with ⟨since, pauses, -, hr⟩ | ⟨since, pauses, hr⟩
  · rw [hr] at h; cases h
  · exact ⟨since, pauses, by rw [hr]⟩

theorem contexts_refused (s : Shared) (h : s.reset.1 = false) :
    s.reset.2.contexts = s.contexts := by
  obtain ⟨since, pauses, hr⟩ := s.clock_refused h
  rw [hr]

theorem moves_refused (own : Nat) (s : Shared) (h : s.reset.1 = false) :
    Moves own s s.reset.2 := by
  refine .extend ?_ ?_ s.slots_reset s.nextSlot_reset s.sums_reset
  · intro hs
    rw [s.contexts_refused h]; exact hs
  · rw [s.contexts_refused h]; exact .refl _

end Shared

namespace Buffer

variable (b : Buffer) (s : Shared) (h : Handle) (first last : Nat) (report : Bool)

/-- The buffer that has answered a pending rebuild. -/
def rebuilt : Buffer :=
  { b with frontier := 0, events := b.events ++ [.rebuilt] }

theorem sync_cases :
    (s.pending b.slot = true ∧ b.sync s = (b.rebuilt, (s.takeRebuild b.slot).2)) ∨
    (s.pending b.slot = false ∧ b.sync s = (b, (s.takeRebuild b.slot).2)) := by
  cases hp : s.pending b.slot with
  | true => exact .inl ⟨rfl, by simp only [sync, Shared.takeRebuild, hp, if_true]; rfl⟩
  | false => exact .inr ⟨rfl, by simp [sync, Shared.takeRebuild, hp]⟩

theorem sync_of_answered (hp : s.pending b.slot = false) : b.sync s = (b, s) := by
  rcases b.sync_cases s with ⟨hpending, -⟩ | ⟨-, hs⟩
  · rw [hp] at hpending; cases hpending
  · rw [hs, s.takeRebuild_of_answered b.slot hp]

theorem store_sync : (b.sync s).1.store = b.store := by
  rcases b.sync_cases s with ⟨-, hs⟩ | ⟨-, hs⟩ <;> exact congrArg (·.1.store) hs

@[simp] theorem sums_sync : (b.sync s).2.sums = s.sums := by
  rcases b.sync_cases s with ⟨-, hs⟩ | ⟨-, hs⟩ <;> rw [hs] <;> rfl

/-- No rebuild is pending once it has been answered. -/
theorem pending_sync : (b.sync s).2.pending (b.sync s).1.slot = false := by
  rcases b.sync_cases s with ⟨-, hs⟩ | ⟨-, hs⟩ <;> rw [hs] <;> exact s.pending_takeRebuild_self _

theorem highlightedUpTo_le : b.highlightedUpTo s ≤ b.frontier := by
  unfold highlightedUpTo
  split
  · exact Nat.zero_le _
  · exact Nat.le_refl _

/-- While no rebuild is pending, the frontier is what is shown of it. -/
theorem highlightedUpTo_of_answered (hp : s.pending b.slot = false) :
    b.highlightedUpTo s = b.frontier := by
  rw [highlightedUpTo, hp]
  rfl

/-- Where anything is highlighted, no rebuild is pending. -/
theorem answered_of_pos (hpos : 0 < b.highlightedUpTo s) : s.pending b.slot = false := by
  refine Bool.eq_false_iff.2 fun hp => ?_
  rw [highlightedUpTo, if_pos hp] at hpos
  exact Nat.lt_irrefl 0 hpos

theorem frontier_sync : (b.sync s).1.frontier = b.highlightedUpTo s := by
  rcases b.sync_cases s with ⟨hp, hs⟩ | ⟨hp, hs⟩
  · rw [hs, highlightedUpTo, if_pos hp]
    rfl
  · rw [hs, b.highlightedUpTo_of_answered s hp]

theorem sync_granted (hslot : b.slot ∈ s.registered) :
    b.sync (s.reset.2.suppress true).requestRebuild = (b.rebuilt, s.granted b.slot) := by
  have hp : (s.reset.2.suppress true).requestRebuild.pending b.slot = true := by
    refine Shared.pending_requestRebuild _ _ ?_
    show b.slot ∈ s.reset.2.registered
    rw [Shared.registered, Shared.slots_reset]
    exact hslot
  simp only [sync, Shared.takeRebuild, hp, if_true]
  rfl

/-- After a granted reset there is room, as the limit is not 0. -/
theorem overflows_granted (hlimit : 0 < b.limit) (hr : s.reset.1 = true) :
    b.rebuilt.overflows (s.granted b.slot) = false := by
  simp only [overflows, s.contexts_granted b.slot hr, Contexts.size_emptied,
    decide_eq_false_iff_not]
  show ¬b.limit ≤ 0
  omega

/-! ## Courses -/

theorem pass_none (hh : b.handle = none) : b.pass s first last report = ⟨.ok (), b, s⟩ := by
  simp only [pass, hh]

theorem pass_room (hh : b.handle = some h) (ho : b.overflows s = false) :
    b.pass s first last report = b.window s h first last report := by
  simp [pass, passWithoutReset, hh, ho]

theorem pass_refused (hh : b.handle = some h) (ho : b.overflows s = true)
    (hr : s.reset.1 = false) :
    b.pass s first last report =
      { b with limit := b.limit * 2 }.window s.reset.2 h first last report := by
  have ho' : b.overflows s.reset.2 = true := by
    rw [overflows, s.contexts_refused hr]
    exact ho
  simp [pass, passWithoutReset, hh, ho, hr, ho']

/-- While resets are suppressed, a pass is one without a reset. -/
theorem pass_suppressed (hh : b.handle = some h) (hs : s.suppressed = true) :
    b.pass s first last report = b.passWithoutReset s h first last report := by
  have hr : s.reset = (false, s) := by simp [Shared.reset, hs]
  cases ho : b.overflows s <;> simp [pass, hh, ho, hr]

/-- What follows a granted reset is a pass of its own, from the frontier as the rebuild left it;
then the frontier moves to the end of what was asked for, reached or not. -/
theorem pass_nested (hh : b.handle = some h) (ho : b.overflows s = true) (hr : s.reset.1 = true)
    (hslot : b.slot ∈ s.registered) :
    b.pass s first last report =
      match b.rebuilt.pass (s.granted b.slot) b.rebuilt.frontier last false with
      | ⟨.error r, b, s⟩ => ⟨.error r, b, s⟩
      | ⟨.ok (), b, s⟩ => ⟨.ok (), { b with frontier := last }, s.suppress false⟩ := by
  have hreset : s.reset = (true, s.reset.2) := Prod.ext hr rfl
  rw [pass_suppressed b.rebuilt (s.granted b.slot) h _ _ _ hh rfl]
  rcases hpass : b.rebuilt.passWithoutReset (s.granted b.slot) h b.rebuilt.frontier last false
    with ⟨result, b', s'⟩
  unfold pass
  rw [hh]
  dsimp only
  rw [if_pos ho, hreset]
  dsimp only
  rw [if_pos rfl, sync_granted b s hslot]
  cases result <;> simp only [hpass]

theorem pass_granted (hh : b.handle = some h) (ho : b.overflows s = true) (hr : s.reset.1 = true)
    (hslot : b.slot ∈ s.registered) (hlimit : 0 < b.limit) :
    b.pass s first last report = ⟨.ok (),
      { b with
        store := { b.store with
          lines := (annotateAt 0 (b.windowScan (s.granted b.slot) h 0 last).1 b.lineList).toArray }
        frontier := last
        events := b.events ++ [.rebuilt] },
      (b.windowShared (s.granted b.slot) h 0 last).suppress false⟩ := by
  rw [pass_nested b s h first last report hh ho hr hslot,
    pass_room b.rebuilt (s.granted b.slot) h _ _ _ hh (b.overflows_granted s hlimit hr)]
  obtain ⟨frontier, news, hw, -, hnews⟩ :=
    window_cases b.rebuilt (s.granted b.slot) h b.rebuilt.frontier last false (Nat.zero_le _)
  rw [hw, hnews.silent rfl, List.append_nil]
  rfl

/-- A pass that is not granted a reset goes over its window, whatever becomes of the limit and the
clock. -/
theorem pass_windowed (hh : b.handle = some h) (hf : first ≤ b.lineCount)
    (hr : b.overflows s = true → s.reset.1 = false) :
    ∃ frontier news limit since pauses, b.pass s first last report = ⟨.ok (),
      { b with
        store := { b.store with
          lines := (annotateAt first (b.windowScan s h first last).1 b.lineList).toArray }
        frontier := frontier
        limit := limit
        events := b.events ++ news },
      { b.windowShared s h first last with sinceReset := since, pauses := pauses }⟩ ∧
      (frontier = max first (min (last + 1) b.lineCount) ∨
        frontier = b.frontier ∧ max first (min (last + 1) b.lineCount) ≤ b.frontier) ∧
      News report first (max (max first (min (last + 1) b.lineCount)) b.frontier) b.lineCount
        news := by
  cases ho : b.overflows s with
  | false =>
    obtain ⟨frontier, news, hw, hfrontier, hnews⟩ := window_cases b s h first last report hf
    refine ⟨frontier, news, b.limit, s.sinceReset, s.pauses, ?_,
      hfrontier.imp_right fun hstay => ⟨hstay.1, hstay.2.1⟩, hnews⟩
    rw [pass_room b s h first last report hh ho, hw]
    rfl
  | true =>
    obtain ⟨since, pauses, hreset⟩ := s.clock_refused (hr ho)
    obtain ⟨frontier, news, hw, hfrontier, hnews⟩ := window_cases { b with limit := b.limit * 2 }
      s.reset.2 h first last report hf
    refine ⟨frontier, news, b.limit * 2, since, pauses, ?_,
      hfrontier.imp_right fun hstay => ⟨hstay.1, hstay.2.1⟩, hnews⟩
    rw [pass_refused b s h first last report hh ho (hr ho), hw, hreset]
    rfl

/-! ## Asking for a line -/

/-- The courses of asking for a line, once a pending rebuild has been answered: there is no such line
or it lies before the frontier, and nothing more is done; or the number of the last line asked for is
refused; or it is a pass, from the frontier to that line. -/
theorem ensure_cases (line lookahead : Nat) :
    (b.lineCount ≤ line ∨ line < (b.sync s).1.frontier) ∧
      b.ensure s line lookahead = ⟨.ok (), (b.sync s).1, (b.sync s).2⟩ ∨
    (line < b.lineCount ∧ (b.sync s).1.frontier ≤ line) ∧
      (s.sums.add? line lookahead = none ∧
          b.ensure s line lookahead = ⟨.error .overflow, (b.sync s).1, (b.sync s).2⟩ ∨
        ∃ last, s.sums.add? line lookahead = some last ∧
          b.ensure s line lookahead = (b.sync s).1.pass (b.sync s).2 (b.sync s).1.frontier
            (min last (b.lineCount - 1)) false) := by
  have hcount : (b.sync s).1.lineCount = b.lineCount := congrArg (·.lines.size) (b.store_sync s)
  have hsums := b.sums_sync s
  unfold ensure
  generalize b.sync s = synced at hcount hsums ⊢
  obtain ⟨b', s'⟩ := synced
  dsimp only at hcount hsums ⊢
  rw [hcount, hsums]
  by_cases hdone : b.lineCount ≤ line ∨ line < b'.frontier
  · exact .inl ⟨hdone, if_pos (by simpa using hdone)⟩
  · refine .inr ⟨by omega, ?_⟩
    rw [if_neg (by simpa using hdone)]
    cases hadd : s.sums.add? line lookahead with
    | none => exact .inl ⟨rfl, rfl⟩
    | some last => exact .inr ⟨last, rfl, rfl⟩

theorem ensure_of_add {line lookahead last : Nat} (hline : line < b.lineCount)
    (hle : (b.sync s).1.frontier ≤ line) (hadd : s.sums.add? line lookahead = some last) :
    b.ensure s line lookahead = (b.sync s).1.pass (b.sync s).2 (b.sync s).1.frontier
      (min last (b.lineCount - 1)) false := by
  rcases b.ensure_cases s line lookahead with ⟨hdone, -⟩ | ⟨-, ⟨hnone, -⟩ | ⟨last', hadd', hrun⟩⟩
  · omega
  · cases hadd.symm.trans hnone
  · obtain rfl := Option.some.inj (hadd.symm.trans hadd')
    exact hrun

end Buffer

end Highlighting

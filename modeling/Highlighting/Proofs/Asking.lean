import Highlighting.Proofs.Overflow

/-!
# Asking for a line

A line that has been asked for lies before the frontier, and asking for it again does nothing at
all, whatever course the first call took:

    line < b.highlightedUpTo s        →  asking for it does nothing          (ensure_of_lt)
    no pass entered                   →  it lies before the frontier          (lt_of_entered_none)
    a pass entered, no reset granted  →  it does afterwards                   (lt_of_run)

All this is so where the number of the last line asked for fits.  One course stops short of it.  A
pass that is granted a reset moves the frontier to the last line that it was asked for, and not past
it (highlightedUpTo_run).  When no line after the one in question was asked for, that line has been
scanned and yet does not lie before the frontier, so that the next call scans it once more
(again_of_short).  Both courses, for any reachable session: ensure_settles.
-/

namespace Highlighting

namespace Buffer

/-- Asking for the line is granted a reset, and goes no further than the line. -/
def FallsShort (b : Buffer) (s : Shared) (line lookahead : Nat) : Prop :=
  (lookahead = 0 ∨ line + 1 = b.lineCount) ∧
    ∃ c, b.entered s (.ensure line lookahead) = some c ∧ c.resets = true

section
variable {b : Buffer} {s : Shared} {line lookahead : Nat} {k : Handle}

/-- Asking for a line that is highlighted does nothing. -/
theorem ensure_of_lt (hlt : line < b.highlightedUpTo s) :
    b.ensure s line lookahead = ⟨.ok (), b, s⟩ := by
  have hp := b.answered_of_pos s (Nat.zero_lt_of_lt hlt)
  rw [b.highlightedUpTo_of_answered s hp] at hlt
  simp [ensure, b.sync_of_answered s hp, hlt]

/-- Where asking for a line enters no pass and is not refused, the line is highlighted. -/
theorem lt_of_entered_none {last : Nat} (hadd : s.sums.add? line lookahead = some last)
    (hk : b.handle = some k) (hline : line < b.lineCount)
    (hc : b.entered s (.ensure line lookahead) = none) : line < b.highlightedUpTo s := by
  rw [← b.frontier_sync s]
  simp only [entered, hk, hadd] at hc
  refine Nat.not_le.1 fun hle => ?_
  rw [if_pos ⟨hline, hle⟩] at hc
  cases hc

/-- Where a line is not highlighted, asking for it enters a pass, unless that is refused. -/
theorem entered_of_le {last : Nat} (hadd : s.sums.add? line lookahead = some last)
    (hk : b.handle = some k) (hline : line < b.lineCount) (hle : b.highlightedUpTo s ≤ line) :
    ∃ c, b.entered s (.ensure line lookahead) = some c := by
  rw [← b.frontier_sync s] at hle
  exact ⟨_, by simp only [entered, hk, hadd]; exact if_pos ⟨hline, hle⟩⟩

/-- Answering a rebuild scans no line. -/
theorem scans_sync (b : Buffer) (s : Shared) : (b.sync s).2.scans = s.scans := by
  rcases b.sync_cases s with ⟨-, hs⟩ | ⟨-, hs⟩ <;> rw [hs] <;> rfl

variable (hfits : s.sums.Fits line lookahead) (h : b.Orderly s) {c : PassCall}
  (hc : b.entered s (.ensure line lookahead) = some c)
include hfits h hc

/-- A pass that is entered for a line gets past it, unless it is granted a reset. -/
theorem lt_of_run (hr : c.resets = false) : line < c.run.buffer.highlightedUpTo c.run.shared := by
  have hready := (enters_ensure h hc).ready
  have hanswered := hready.pending
  obtain ⟨k, last, -, hadd, hline, hreach, rfl⟩ := entered_ensure hc
  have hlast := hfits.exact last hadd
  have hcount : (b.sync s).1.lineCount = b.lineCount := (same_sync b s).lineCount
  rcases PassCall.run_cases _ hready with ⟨hr', -⟩ |
    ⟨-, frontier, news, limit, since, pauses, hrun, hfrontier, -⟩
  · rw [hr] at hr'; cases hr'
  · dsimp only at hfrontier
    rw [highlightedUpTo_of_answered _ _ (by rw [hrun]; exact hanswered), hrun]
    show line < frontier
    omega

/-- A pass that is granted a reset gets to the last line that it was asked for. -/
theorem highlightedUpTo_run (hr : c.resets = true) :
    c.run.buffer.highlightedUpTo c.run.shared = min (line + lookahead) (b.lineCount - 1) := by
  have hready := (enters_ensure h hc).ready
  obtain ⟨ho, hreset⟩ := c.resets_iff.1 hr
  obtain ⟨k, last, -, hadd, -, -, rfl⟩ := entered_ensure hc
  rw [← hfits.exact last hadd]
  exact (PassCall.granted_run _ hready ho hreset).highlightedUpTo

/-- It has scanned every line up to there, from the first on. -/
theorem scans_of_resets (hr : c.resets = true) :
    c.run.shared.scans =
      (scanRecords c.handle.id 0
        (b.texts.take (min (line + lookahead) (b.lineCount - 1) + 1))).reverse ++ s.scans := by
  have hready := (enters_ensure h hc).ready
  have hsame := same_sync b s
  have hscans := PassCall.scans_run _ hready
  obtain ⟨ho, hreset⟩ := c.resets_iff.1 hr
  rw [PassCall.start, if_pos hr, (c.windowScan_granted hreset).1] at hscans
  obtain ⟨k, last, -, hadd, hline, -, rfl⟩ := entered_ensure hc
  have hcount : (b.sync s).1.lineCount = b.lineCount := hsame.lineCount
  rw [hscans, PassCall.count, ← hfits.exact last hadd]
  dsimp only
  rw [hsame.texts, hcount, scans_sync, Nat.min_eq_left (by omega)]

/-- A pass that is entered for a line scans that line at least. -/
theorem scans_length_lt : s.scans.length < c.run.shared.scans.length := by
  have hready := (enters_ensure h hc).ready
  have hgrown := congrArg List.length (PassCall.scans_run _ hready)
  have hstart : c.start ≤ c.first := by
    unfold PassCall.start
    split <;> omega
  rw [List.length_append, List.length_reverse, scanRecords_length, windowTexts,
    textsBetween_length] at hgrown
  obtain ⟨k, last, -, hadd, hline, hreach, rfl⟩ := entered_ensure hc
  have hlast := hfits.exact last hadd
  have hcount : (b.sync s).1.lineList.length = b.lineCount := (same_sync b s).lineCount
  have hcount' : (b.sync s).1.lineCount = b.lineCount := (same_sync b s).lineCount
  have hbefore := congrArg List.length (scans_sync b s)
  dsimp only at hgrown hstart
  omega

end

section
variable {b : Buffer} {s : Shared} {line lookahead : Nat} {k : Handle}
  (hfits : s.sums.Fits line lookahead) (h : b.Orderly s) (hk : b.handle = some k)
  (hline : line < b.lineCount)
include hfits h hk hline

/-- A call that does not fall short leaves nothing for the next one to do. -/
theorem settled_of_not_short (hshort : ¬b.FallsShort s line lookahead) :
    ∃ b' s', b.ensure s line lookahead = ⟨.ok (), b', s'⟩ ∧ line < b'.highlightedUpTo s' ∧
      b'.ensure s' line lookahead = ⟨.ok (), b', s'⟩ := by
  obtain ⟨b', s', hrun, -⟩ := ensure_of_fits h hfits
  have hpast : line < b'.highlightedUpTo s' := by
    cases hc : b.entered s (.ensure line lookahead) with
    | none =>
      have hlt := lt_of_entered_none hfits hk hline hc
      rw [ensure_of_lt hlt] at hrun
      cases hrun
      exact hlt
    | some c =>
      rw [ensure_of_entered hc] at hrun
      cases hr : c.resets with
      | false =>
        have hlt := lt_of_run hfits h hc hr
        rw [hrun] at hlt
        exact hlt
      | true =>
        have hlast := highlightedUpTo_run hfits h hc hr
        have hmore : ¬(lookahead = 0 ∨ line + 1 = b.lineCount) := fun hend =>
          hshort ⟨hend, c, hc, hr⟩
        rw [hrun] at hlast
        dsimp only at hlast
        omega
  exact ⟨b', s', hrun, hpast, ensure_of_lt hpast⟩

/-- A call that falls short has scanned the line, and the next one scans it again. -/
theorem again_of_short (hshort : b.FallsShort s line lookahead) :
    ∃ b' s', b.ensure s line lookahead = ⟨.ok (), b', s'⟩ ∧ b'.highlightedUpTo s' = line ∧
      s'.scans = (scanRecords k.id 0 (b.texts.take (line + 1))).reverse ++ s.scans ∧
      (b'.ensure s' line lookahead).shared.scans ≠ s'.scans := by
  obtain ⟨hend, c, hc, hr⟩ := hshort
  obtain ⟨b', s', hrun, hkeeps, hsame, -⟩ := ensure_of_fits h hfits
  have hlast := highlightedUpTo_run hfits h hc hr
  have hscans := scans_of_resets hfits h hc hr
  rw [← ensure_of_entered hc, hrun, show min (line + lookahead) (b.lineCount - 1) = line by omega]
    at hlast hscans
  have hid : c.handle.id = k.id := by
    obtain ⟨k', last, hk', -, -, -, rfl⟩ := entered_ensure hc
    rw [Option.some.inj (hk'.symm.trans hk)]
  refine ⟨b', s', hrun, hlast, hid ▸ hscans, fun heq => ?_⟩
  have hfits' : s'.sums.Fits line lookahead := hkeeps.shared.sums ▸ hfits
  obtain ⟨d, hd⟩ := entered_of_le hfits' (hsame.handle.trans hk) (hsame.lineCount.symm ▸ hline)
    (Nat.le_of_eq hlast)
  have hmore := scans_length_lt hfits' hkeeps.orderly hd
  rw [← ensure_of_entered hd, heq] at hmore
  exact Nat.lt_irrefl _ hmore

end

end Buffer

namespace Session

/-- **A line that was asked for is highlighted**, and asking for it again changes nothing at all in
the session, unless the first call fell short; this is so wherever the number of the last line asked
for fits.  One that fell short has scanned every line up to the one that was asked for, so that this
one is where the frontier lies, and the next call scans it once more. -/
theorem ensure_settles {s : Session} (hs : s.Reachable) {name : String} {b : Buffer}
    (hb : s.buffers.lookup name = some b) {k : Handle} (hk : b.handle = some k) {line : Nat}
    (hline : line < b.lineCount) {lookahead : Nat} (hfits : s.shared.sums.Fits line lookahead) :
    ∃ b' s', s.step (.buffer name (.ensure line lookahead)) = (.ok .done, s') ∧
      s'.buffers.lookup name = some b' ∧
      (¬b.FallsShort s.shared line lookahead →
        line < b'.highlightedUpTo s'.shared ∧
          s'.step (.buffer name (.ensure line lookahead)) = (.ok .done, s')) ∧
      (b.FallsShort s.shared line lookahead →
        b'.highlightedUpTo s'.shared = line ∧
          s'.shared.scans = (scanRecords k.id 0 (b.texts.take (line + 1))).reverse ++
            s.shared.scans ∧
          (s'.step (.buffer name (.ensure line lookahead))).2.shared.scans ≠ s'.shared.scans) := by
  have ho := hs.orderly.buffers _ (mem_of_lookup hb)
  obtain ⟨b', shared, hrun, -⟩ := Buffer.ensure_of_fits ho hfits
  have hrun' : runOnBuffer b s.shared (.ensure line lookahead) = ⟨.ok .done, b', shared⟩ := by
    show conclude (b.ensure s.shared line lookahead) _ = _
    rw [hrun]
    rfl
  have hb' := lookup_put name b' s.buffers
  refine ⟨b', { s with shared := shared, buffers := put name b' s.buffers }, ?_, hb', ?_, ?_⟩
  · rw [step_buffer hb, hrun']
    rfl
  · intro hshort
    obtain ⟨c, shared', hrun'', hpast, hagain⟩ :=
      Buffer.settled_of_not_short hfits ho hk hline hshort
    obtain ⟨-, rfl, rfl⟩ := Outcome.mk.inj (hrun.symm.trans hrun'')
    refine ⟨hpast, ?_⟩
    have hagain' : runOnBuffer b' shared (.ensure line lookahead) = ⟨.ok .done, b', shared⟩ := by
      show conclude (b'.ensure shared line lookahead) _ = _
      rw [hagain]
      rfl
    rw [step_buffer hb', hagain', store, put_put]
    rfl
  · intro hshort
    obtain ⟨c, shared', hrun'', hends, hscans, hmore⟩ :=
      Buffer.again_of_short hfits ho hk hline hshort
    obtain ⟨-, rfl, rfl⟩ := Outcome.mk.inj (hrun.symm.trans hrun'')
    refine ⟨hends, hscans, ?_⟩
    rw [step_buffer hb']
    exact hmore

/-- With a reset granted and no line after it asked for, a line that was asked for is not before the
frontier. -/
theorem not_ensure_settles_crowded :
    ¬∀ (s : Session) (name : String) (b : Buffer) (k : Handle) (line lookahead : Nat),
      s.Reachable → s.buffers.lookup name = some b → b.handle = some k → line < b.lineCount →
      ∃ b' s', s.step (.buffer name (.ensure line lookahead)) = (.ok .done, s') ∧
        s'.buffers.lookup name = some b' ∧ line < b'.highlightedUpTo s'.shared ∧
        s'.step (.buffer name (.ensure line lookahead)) = (.ok .done, s') := by
  intro hall
  obtain ⟨b, hb⟩ : ∃ b, ((start 0 .standard).after (crowded false)).buffers.lookup "text" =
      some b := ⟨_, rfl⟩
  have hopen : ((start 0 .standard).after (crowded false)).buffers.all (fun e =>
      e.2.handle.isSome && decide (0 < e.2.lineCount)) = true := by
    decide +kernel
  have hafter : ((((start 0 .standard).after (crowded false)).step
      (.buffer "text" (.ensure 0 0))).2.buffers.lookup "text").any (fun b =>
        decide (0 < b.highlightedUpTo (((start 0 .standard).after (crowded false)).step
          (.buffer "text" (.ensure 0 0))).2.shared)) = false := by
    decide +kernel
  have hopen := List.all_eq_true.1 hopen _ (mem_of_lookup hb)
  rw [Bool.and_eq_true, decide_eq_true_eq] at hopen
  obtain ⟨k, hk⟩ := Option.isSome_iff_exists.1 hopen.1
  obtain ⟨b', s', hstep, hb', hpast, -⟩ := hall _ "text" b k 0 0
    (reachable_after 0 .standard (crowded false)) hb hk hopen.2
  rw [hstep, hb', Option.any_some, decide_eq_false_iff_not] at hafter
  exact hafter hpast

theorem ensure_settles_crowded :
    (∃ b' s', ((start 0 .standard).after (crowded true)).step (.buffer "text" (.ensure 0 0)) =
        (.ok .done, s') ∧ s'.buffers.lookup "text" = some b' ∧ 0 < b'.highlightedUpTo s'.shared ∧
      s'.step (.buffer "text" (.ensure 0 0)) = (.ok .done, s')) ∧
    ∃ b' s', ((start 0 .standard).after (crowded false)).step (.buffer "text" (.ensure 0 0)) =
        (.ok .done, s') ∧ s'.buffers.lookup "text" = some b' ∧ b'.highlightedUpTo s'.shared = 0 ∧
      (s'.step (.buffer "text" (.ensure 0 0))).2.shared.scans ≠ s'.shared.scans := by
  have hall : ∀ suppressed, ((start 0 .standard).after (crowded suppressed)).buffers.all (fun e =>
      e.2.handle.isSome && decide (0 < e.2.lineCount) &&
      (e.2.entered ((start 0 .standard).after (crowded suppressed)).shared (.ensure 0 0)).any
        fun c => c.resets == !suppressed) = true := by
    decide +kernel
  have hcall : ∀ suppressed, ∃ b k c,
      ((start 0 .standard).after (crowded suppressed)).buffers.lookup "text" = some b ∧
      b.handle = some k ∧ 0 < b.lineCount ∧
      b.entered ((start 0 .standard).after (crowded suppressed)).shared (.ensure 0 0) = some c ∧
      c.resets = !suppressed := by
    intro suppressed
    obtain ⟨b, hb⟩ : ∃ b, ((start 0 .standard).after (crowded suppressed)).buffers.lookup "text" =
        some b := ⟨_, rfl⟩
    have hone := List.all_eq_true.1 (hall suppressed) _ (mem_of_lookup hb)
    rw [Bool.and_eq_true, Bool.and_eq_true, decide_eq_true_eq, Option.any_eq_true] at hone
    obtain ⟨⟨hhandle, hline⟩, c, hc, hresets⟩ := hone
    obtain ⟨k, hk⟩ := Option.isSome_iff_exists.1 hhandle
    exact ⟨b, k, c, hb, hk, hline, hc, beq_iff_eq.1 hresets⟩
  obtain ⟨b₁, k₁, c₁, hb₁, hk₁, hline₁, hc₁, hr₁⟩ := hcall true
  obtain ⟨b₂, k₂, c₂, hb₂, hk₂, hline₂, hc₂, hr₂⟩ := hcall false
  obtain ⟨b', s', hstep, hb', hsettled, -⟩ :=
    ensure_settles (reachable_after 0 .standard (crowded true)) hb₁ hk₁ hline₁ (Sums.fits_zero _ 0)
  obtain ⟨b'', s'', hstep', hb'', -, hshort⟩ :=
    ensure_settles (reachable_after 0 .standard (crowded false)) hb₂ hk₂ hline₂ (Sums.fits_zero _ 0)
  have hnot : ¬b₁.FallsShort ((start 0 .standard).after (crowded true)).shared 0 0 := by
    rintro ⟨-, c, hc, hr⟩
    obtain rfl := Option.some.inj (hc₁.symm.trans hc)
    rw [hr₁] at hr
    cases hr
  obtain ⟨hends, -, hmore⟩ := hshort ⟨.inl rfl, c₂, hc₂, hr₂⟩
  exact ⟨⟨b', s', hstep, hb', hsettled hnot⟩, b'', s'', hstep', hb'', hends, hmore⟩

end Session

end Highlighting

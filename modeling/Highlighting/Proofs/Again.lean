import Highlighting.Proofs.Reachability
import Highlighting.Proofs.Strides

/-!
# Highlighting again what is highlighted

A buffer that is highlighted to its end, with no transaction open, carries on each line what a scan
from the end of the line before it finds, in the table as it is.  So when its highlighting is
forgotten and made again, the scan finds on each line what is there, and interns no source that is
not in the table.  All that tells the buffer from what it was are the flags of the lines, which say
that no line ends in another state than before.

    lines annotated with what they carry      →  settled                  (annotateAt_self)
    every line linked, and scanned in order   →  what the lines carry     (windowScan_of_linked)
    forgotten and asked for to its end        →  settled                  (ensure_again)
    any undisturbed session                                               (highlighted_again)

A reset between the two would change the numbers of the contexts, so there has to be room.
-/

namespace Highlighting

/-- The line as it is when its highlighting has found what was there. -/
def Line.settled (x : Line) : Line :=
  { x with changed := false }

@[simp] theorem Line.annotate_self (x : Line) : x.annotate x.highlight = x.settled := by
  simp [Line.annotate, Line.settled, Line.endState]

/-- Lines that are given the annotations that they carry. -/
theorem annotateAt_self (lines : List Line) :
    annotateAt 0 (lines.map (·.highlight)) lines = lines.map Line.settled := by
  apply List.ext_getElem?
  intro n
  rw [List.getElem?_map]
  by_cases hn : n < lines.length
  · have hline := annotateAt_inside 0 (lines.map (·.highlight)) lines n lines[n].highlight
      (by rw [List.getElem?_map, List.getElem?_eq_getElem hn]; rfl)
    rw [Nat.zero_add, List.getElem?_eq_getElem hn] at hline
    rw [hline, List.getElem?_eq_getElem hn, Option.map_some, Option.map_some, Line.annotate_self]
  · rw [List.getElem?_eq_none (by simpa using hn), List.getElem?_eq_none (by simpa using hn)]
    rfl

namespace Buffer

/-- The buffer with every line settled. -/
def settled (b : Buffer) : Buffer :=
  { b with store := { b.store with lines := (b.lineList.map Line.settled).toArray } }

section
variable {b : Buffer} {s : Shared}

/-- A window over linked lines from the first on finds what they carry, in the table as it is. -/
theorem windowScan_of_linked (k : Handle)
    (hlinks : ∀ i, i < b.lineCount → Linked k.language s.contexts b.lineList i) :
    b.windowTexts 0 (b.lineCount - 1) = b.texts ∧
      b.windowScan s k 0 (b.lineCount - 1) = (b.lineList.map (·.highlight), s.contexts) := by
  have htexts : b.windowTexts 0 (b.lineCount - 1) = b.texts := by
    rw [windowTexts, textsBetween, List.drop_zero, List.take_of_length_le]
    · rfl
    · show b.lineCount ≤ _
      omega
  refine ⟨htexts, ?_⟩
  have hscan := scanLines_linked k.language s.contexts b.lineList b.lineList.length (Nat.le_refl _)
    hlinks
  rw [List.take_length] at hscan
  rw [windowScan, htexts]
  exact hscan

/-- Highlighting that has been forgotten is made again as it was. -/
theorem ensure_again (h : b.Orderly s) (hc : b.Current s) {k : Handle} (hk : b.handle = some k)
    (he : b.store.editing = false) (hp : s.pending b.slot = false)
    (hfull : b.frontier = b.lineCount) (hroom : s.contexts.size < b.limit) :
    b.invalidate.ensure s (b.lineCount - 1) 0 = ⟨.ok (), b.settled,
      { s with scans := (scanRecords k.id 0 b.texts).reverse ++ s.scans }⟩ := by
  obtain ⟨htexts, hscan⟩ := windowScan_of_linked k fun i hi => hc.linked he hp hk i (hfull ▸ hi)
  obtain ⟨frontier, news, hwindow, hfrontier, hnews⟩ :=
    window_cases b.invalidate s k 0 (b.lineCount - 1) false (Nat.zero_le _)
  have hcount : b.invalidate.lineCount = b.lineCount := rfl
  have hzero : b.invalidate.frontier = 0 := rfl
  have hpos := h.lineCount_pos
  have hreached : frontier = b.frontier := by
    rw [hcount, hzero] at hfrontier
    omega
  have hshared : b.windowShared s k 0 (b.lineCount - 1) =
      { s with scans := (scanRecords k.id 0 b.texts).reverse ++ s.scans } := by
    rw [windowShared, hscan, htexts]
  have hlines : (annotateAt 0 (b.windowScan s k 0 (b.lineCount - 1)).1 b.lineList).toArray =
      b.settled.store.lines := by
    rw [hscan, annotateAt_self]
    rfl
  have hsync : b.invalidate.sync s = (b.invalidate, s) := b.invalidate.sync_of_answered s hp
  rw [b.invalidate.ensure_of_add s (by omega) (by rw [hsync, hzero]; exact Nat.zero_le _)
    (s.sums.fits_zero _), hsync]
  rw [hcount, Nat.add_zero, Nat.min_self]
  refine (pass_room b.invalidate s k _ _ _ hk (decide_eq_false (Nat.not_le.2 hroom))).trans ?_
  refine hwindow.trans ?_
  rw [hreached, hnews.silent rfl, List.append_nil]
  refine congrArg₂ (Outcome.mk (.ok ())) ?_ hshared
  exact congrArg (fun lines => { b with store := { b.store with lines := lines } }) hlines

end

end Buffer

namespace Session

/-- **Highlighting again changes nothing.**  In every session in which contexts have been forgotten
by passes alone: when a buffer without an open transaction is highlighted to its end, with room for
more contexts, and its highlighting is forgotten and asked for again, then every line carries what
it carried, the numbers of contexts included, and is flagged as unchanged.  The buffer is highlighted
as far as before and has no further event to tell of; no context is made, and nothing else in the
session is different, but that each of the lines has been scanned once more. -/
theorem highlighted_again {s : Session} (hs : s.Undisturbed) {name : String} {b : Buffer}
    (hb : s.buffers.lookup name = some b) {k : Handle} (hk : b.handle = some k)
    (he : b.store.editing = false) (hfull : b.highlightedUpTo s.shared = b.lineCount)
    (hroom : s.shared.contexts.size < b.limit) :
    ∃ s' s'', s.step (.buffer name .invalidate) = (.ok .done, s') ∧
      s'.step (.buffer name (.ensure (b.lineCount - 1) 0)) = (.ok .done, s'') ∧
      s'' = { s with
        shared := { s.shared with
          scans := (scanRecords k.id 0 b.texts).reverse ++ s.shared.scans }
        buffers := put name b.settled s.buffers } ∧
      b.settled.highlightedUpTo s''.shared = b.highlightedUpTo s.shared := by
  have h := hs.orderly.buffers _ (mem_of_lookup hb)
  have hc := hs.current _ (mem_of_lookup hb)
  have hp := b.answered_of_pos s.shared (hfull ▸ h.lineCount_pos)
  have hagain := Buffer.ensure_again h hc hk he hp
    ((b.highlightedUpTo_of_answered s.shared hp).symm.trans hfull) hroom
  have hrun : runOnBuffer b.invalidate s.shared (.ensure (b.lineCount - 1) 0) =
      ⟨.ok .done, b.settled, { s.shared with
        scans := (scanRecords k.id 0 b.texts).reverse ++ s.shared.scans }⟩ := by
    show conclude (b.invalidate.ensure s.shared (b.lineCount - 1) 0) _ = _
    rw [hagain]
    rfl
  refine ⟨{ s with buffers := put name b.invalidate s.buffers }, _, ?_, ?_, rfl, rfl⟩
  · rw [step_buffer hb]
    rfl
  · rw [step_buffer (lookup_put name b.invalidate s.buffers), hrun, store, put_put]
    rfl

/-- A session with one buffer that is highlighted to its end, all of it inside of a fence. -/
def fenceOpen : Session :=
  (start 0 .standard).after
    [.define "fenced" (.ok .fenced) false, .newBuffer "text" (some "<=\nb") none,
      .useHandle "text" "fenced", .buffer "text" (.ensure 1 0)]

theorem highlighted_again_fenceOpen :
    ∃ b s' s'', fenceOpen.buffers.lookup "text" = some b ∧
      b.lineList.map (·.endState) = [⟨1, some 0⟩, ⟨1, some 0⟩] ∧
      fenceOpen.step (.buffer "text" .invalidate) = (.ok .done, s') ∧
      s'.step (.buffer "text" (.ensure 1 0)) = (.ok .done, s'') ∧
      s''.buffers.lookup "text" = some b.settled ∧
      s''.shared.contexts = fenceOpen.shared.contexts := by
  have hs : fenceOpen.Undisturbed := .after (.start 0 .standard) _ (by simp)
  obtain ⟨b, hb⟩ : ∃ b, fenceOpen.buffers.lookup "text" = some b := ⟨_, rfl⟩
  have hstate : fenceOpen.buffers.all (fun e => e.2.handle.isSome && !e.2.store.editing &&
      e.2.highlightedUpTo fenceOpen.shared == e.2.lineCount && e.2.lineCount == 2 &&
      decide (fenceOpen.shared.contexts.size < e.2.limit) &&
      e.2.lineList.map (·.endState) == [⟨1, some 0⟩, ⟨1, some 0⟩]) = true := by
    decide +kernel
  have hstate := List.all_eq_true.1 hstate _ (mem_of_lookup hb)
  simp only [Bool.and_eq_true, beq_iff_eq, Bool.not_eq_true', decide_eq_true_eq] at hstate
  obtain ⟨⟨⟨⟨⟨hhandle, he⟩, hfull⟩, hcount⟩, hroom⟩, hends⟩ := hstate
  obtain ⟨k, hk⟩ := Option.isSome_iff_exists.1 hhandle
  obtain ⟨s', s'', hforgotten, hagain, rfl, -⟩ := highlighted_again hs hb hk he hfull hroom
  rw [hcount] at hagain
  exact ⟨b, s', _, hb, hends, hforgotten, hagain, lookup_put _ _ _, rfl⟩

end Session

end Highlighting

import Highlighting.Proofs.Keeping

/-!
# Passes keep buffers current

A window leaves linked the lines it scans, and those outside it that were linked before.  So a
pass over a window that reaches over every broken link mends them all.  Closing a transaction
breaks the links of the lines that it may have changed, and asks for such a pass; asking for a line
goes on from the frontier.

    a window                    (links_window)
    a pass                      (current_pass)
    the end of a transaction    (keeps_editEnd)
    asking for a line           (keeps_ensure)
-/

namespace Highlighting.Buffer

section
variable {b : Buffer} {s : Shared} (h : b.Orderly s) (k : Handle) (first last : Nat)
include h

/-! ## Windows -/

theorem windowScan_grows :
    (b.windowScan s k first last).2.Sound ∧
      s.contexts.Extends (b.windowScan s k first last).2 ∧
      ∀ found ∈ (b.windowScan s k first last).1,
        (b.windowScan s k first last).2.Issued found.endState := by
  obtain ⟨hsound, hx, -, -⟩ := k.language.scanLines_grows s.contexts (stateBefore b.lineList first)
    (b.windowTexts first last) h.sound (h.issued_before first)
  exact ⟨hsound, hx, k.language.scanLines_issued _ _ _ h.sound (h.issued_before first)⟩

/-- The lines of a window, and what is shared after it, are in order. -/
theorem orderly_window (hk : b.handle = some k) (frontier : Nat) (events : List Event)
    (hfrontier : b.store.editing = true → frontier ≤ b.lineCount ∨ frontier = b.frontier) :
    Orderly
      { b with
        store := { b.store with
          lines := (annotateAt first (b.windowScan s k first last).1 b.lineList).toArray }
        frontier := frontier
        events := events } (b.windowShared s k first last) := by
  obtain ⟨hsound, hx, hissued⟩ := windowScan_grows h k first last
  have hsize : (annotateAt first (b.windowScan s k first last).1 b.lineList).toArray.size =
      b.lineCount := by simp
  refine ⟨h.limit_pos, ?_,
    ⟨Nat.lt_of_lt_of_eq h.lineCount_pos hsize.symm, h.framed.unchanged, h.framed.changed⟩,
    ?_, h.registered, hsound, ?_⟩
  · intro hn
    rw [show b.handle = none from hn] at hk; cases hk
  · intro he n hn
    show n < Array.size _ ∨ frontier ≤ Array.size _
    rw [hsize]
    rcases hfrontier he with hle | rfl
    · exact .inr hle
    · exact h.window he n hn
  · intro x hmem
    rcases annotateAt_mem _ _ _ x hmem with ⟨found, hfound, hxf⟩ | ⟨y, hy, hxy⟩
    · rw [Line.endState, hxf]
      exact hissued found hfound
    · rw [Line.endState, hxy]
      exact (h.issued y hy).mono hx.nextId_le

/-- A window leaves linked what it scans, and what was linked outside of it as far as the state
after its last line is what it was. -/
theorem links_window (bound : Nat)
    (hbound : bound = max first (min (last + 1) b.lineCount) ∨
      stateBefore (annotateAt first (b.windowScan s k first last).1 b.lineList)
          (max first (min (last + 1) b.lineCount)) =
        stateBefore b.lineList (max first (min (last + 1) b.lineCount)))
    (i : Nat) (hi : i < bound)
    (hlink : i < first ∨ min (last + 1) b.lineCount ≤ i →
      Linked k.language s.contexts b.lineList i) :
    Linked k.language (b.windowScan s k first last).2
      (annotateAt first (b.windowScan s k first last).1 b.lineList) i := by
  obtain ⟨hsound, hx, -⟩ := windowScan_grows h k first last
  have hlen := b.windowScan_length s k first last
  by_cases hin : first ≤ i ∧ i < min (last + 1) b.lineCount
  · exact annotateAt_linked k.language s.contexts _ b.lineList first _ h.sound hsound
      (h.issued_before first) (.refl _) i hin.1 hin.2
  · have hlater : Linked k.language (b.windowScan s k first last).2 b.lineList i :=
      (hlink (by omega)).extend h.sound hsound (h.issued_before i) hx
    rcases Nat.lt_or_ge i first with hlt | hge
    · exact hlater.congr (annotateAt_before _ _ _ i hlt)
        (stateBefore_congr _ _ i fun j hj => annotateAt_before _ _ _ j (by omega))
    · refine hlater.congr (annotateAt_after _ _ _ i (by omega)) ?_
      rcases hbound with rfl | hstate
      · omega
      · rcases Nat.lt_or_ge (max first (min (last + 1) b.lineCount)) i with hlt | hle
        · exact stateBefore_congr _ _ i fun j hj => annotateAt_after _ _ _ j (by omega)
        · rw [show i = max first (min (last + 1) b.lineCount) by omega]
          exact hstate

/-- Every line up to the end of the window or the frontier is linked, if those that were not
scanned had been. -/
theorem links_scanned (frontier : Nat) (hle : first ≤ b.frontier)
    (hfrontier : frontier = max first (min (last + 1) b.lineCount) ∨
      frontier = b.frontier ∧
        stateBefore (annotateAt first (b.windowScan s k first last).1 b.lineList)
            (max first (min (last + 1) b.lineCount)) =
          stateBefore b.lineList (max first (min (last + 1) b.lineCount)))
    (i : Nat) (hi : i < frontier ∨ i ≤ last)
    (hlink : i < first ∨ min (last + 1) b.lineCount ≤ i → i < b.frontier →
      Linked k.language s.contexts b.lineList i) :
    Linked k.language (b.windowScan s k first last).2
      (annotateAt first (b.windowScan s k first last).1 b.lineList) i := by
  rcases Nat.lt_or_ge i (max first (min (last + 1) b.lineCount)) with hin | hout
  · exact links_window h k first last _ (.inl rfl) i hin fun ho => hlink ho (by omega)
  · rcases Nat.lt_or_ge i b.lineCount with hlt | hge
    · rcases hfrontier with rfl | ⟨rfl, hstate⟩
      · omega
      · have hi : i < b.frontier := by omega
        exact links_window h k first last _ (.inr hstate) i hi fun ho => hlink ho hi
    · exact linked_of_length_le _ _ _ i (by simpa using hge)

theorem moves_window (hk : b.handle = some k) (frontier : Nat) (events : List Event)
    (hfrontier : b.store.editing = true → frontier ≤ b.lineCount ∨ frontier = b.frontier) :
    b.Moves s
      { b with
        store := { b.store with
          lines := (annotateAt first (b.windowScan s k first last).1 b.lineList).toArray }
        frontier := frontier
        events := events } (b.windowShared s k first last) := by
  obtain ⟨hsound, hx, -⟩ := windowScan_grows h k first last
  exact ⟨rfl, ⟨0, (Nat.mul_one _).symm⟩, .extend (fun _ => hsound) hx rfl rfl rfl,
    orderly_window h k first last hk frontier events hfrontier⟩

end

/-! ## Passes -/

/-- The buffer holds the same text under the same definition. -/
structure SameText (b b' : Buffer) : Prop where
  texts : b'.texts = b.texts
  handle : b'.handle = b.handle
  lookahead : b'.lookahead = b.lookahead
  depth : b'.store.depth = b.store.depth

namespace SameText

variable {b b' b'' : Buffer}

theorem refl (b : Buffer) : SameText b b :=
  ⟨rfl, rfl, rfl, rfl⟩

theorem trans (h : SameText b b') (k : SameText b' b'') : SameText b b'' :=
  ⟨k.texts.trans h.texts, k.handle.trans h.handle, k.lookahead.trans h.lookahead,
    k.depth.trans h.depth⟩

theorem lineCount (h : SameText b b') : b'.lineCount = b.lineCount := by
  rw [← b'.texts_length, h.texts, b.texts_length]

theorem editing (h : SameText b b') : b'.store.editing = b.store.editing := by
  rw [TextStore.editing, TextStore.editing, h.depth]

/-- What holds of the sums that a search for regions makes still holds of them. -/
theorem sums {P : Sums → Nat → Nat → Prop} {s s' : Shared} (h : SameText b b')
    (hsums : s'.sums = s.sums) (hall : ∀ line < b.lineCount, P s.sums line b.lookahead) :
    ∀ line < b'.lineCount, P s'.sums line b'.lookahead := by
  rw [h.lineCount, h.lookahead, hsums]
  exact hall

theorem annotate (b : Buffer) (i : Nat) (hs : List Highlight) (frontier limit : Nat)
    (events : List Event) :
    SameText b { b with
      store := { b.store with lines := (annotateAt i hs b.lineList).toArray }
      frontier := frontier
      limit := limit
      events := events } :=
  ⟨annotateAt_texts i hs b.lineList, rfl, rfl, rfl⟩

end SameText

/-- What a pass over lines `first` to `last` comes to, whichever course it takes, when no rebuild
is pending. -/
structure Passed (b : Buffer) (s : Shared) (k : Handle) (first last : Nat) (b' : Buffer)
    (s' : Shared) : Prop where
  moves : b.Moves s b' s'
  same : SameText b b'
  window : b'.store = { b.store with lines := b'.store.lines }
  pending : s'.pending b.slot = false
  /-- Every line up to the end of the window or the frontier is linked, if those that were not
  scanned had been. -/
  links : ∀ i, i < b'.frontier ∨ i ≤ last →
    (i < first ∨ min (last + 1) b.lineCount ≤ i → i < b.frontier →
      Linked k.language s.contexts b.lineList i) →
    Linked k.language s'.contexts b'.lineList i

section
variable {b : Buffer} {s : Shared} (h : b.Orderly s) (k : Handle) (first last : Nat)
  (report : Bool)
include h

theorem passed_window (hk : b.handle = some k) (hf : first ≤ b.lineCount)
    (hle : first ≤ b.frontier) (hp : s.pending b.slot = false) :
    ∃ b' s', b.window s k first last report = ⟨.ok (), b', s'⟩ ∧ b.Passed s k first last b' s' := by
  obtain ⟨frontier, news, hw, hfrontier, -⟩ := window_cases b s k first last report hf
  refine ⟨_, _, hw, moves_window h k first last hk frontier _ ?_,
    .annotate b _ _ _ _ _, rfl, hp, ?_⟩
  · intro _
    rcases hfrontier with rfl | ⟨rfl, -⟩
    · exact .inl (by omega)
    · exact .inr rfl
  · refine links_scanned h k first last frontier hle ?_
    rcases hfrontier with hf | ⟨hf, -, hstate⟩
    · exact .inl hf
    · exact .inr ⟨hf, hstate⟩

theorem passed_granted (hk : b.handle = some k) (ho : b.overflows s = true)
    (hr : s.reset.1 = true) (hlast : b.store.editing = true → last ≤ b.lineCount) :
    ∃ b' s', b.pass s first last report = ⟨.ok (), b', s'⟩ ∧
      b.Passed s k first last b' s' := by
  have hg : b.Orderly (s.granted b.slot) :=
    h.elsewhere (by rw [Shared.registered_granted]; exact h.registered)
      (by rw [s.contexts_granted b.slot hr]; exact .emptied _)
      (by rw [s.contexts_granted b.slot hr]; exact Nat.le_refl _)
  have hmoved : b.Moves s b (s.granted b.slot) :=
    ⟨rfl, ⟨0, (Nat.mul_one _).symm⟩, s.moves_granted b.slot hr, hg⟩
  refine ⟨_, _, b.pass_granted s k first last report hk ho hr h.registered h.limit_pos,
    ?_, .annotate b _ _ _ _ _, rfl, s.pending_granted_self b.slot, ?_⟩
  · have hwindow := moves_window hg k 0 last hk last (b.events ++ [.rebuilt])
      fun he => .inl (hlast he)
    exact (hmoved.trans hwindow).trans (moves_suppress hwindow.orderly false)
  · intro i hi _
    have hi : i ≤ last := by
      rcases hi with hi | hi
      · exact Nat.le_of_lt hi
      · exact hi
    refine links_scanned hg k 0 last _ (Nat.zero_le _) (.inl rfl) i (.inr hi) fun hout _ => ?_
    exact linked_of_length_le _ _ _ i (by rw [lineList_length]; omega)

/-- Any pass over a window that begins at a line before the frontier. -/
theorem passed (hk : b.handle = some k) (hf : first ≤ b.lineCount) (hle : first ≤ b.frontier)
    (hlast : b.store.editing = true → last ≤ b.lineCount) (hp : s.pending b.slot = false) :
    ∃ b' s', b.pass s first last report = ⟨.ok (), b', s'⟩ ∧
      b.Passed s k first last b' s' := by
  cases ho : b.overflows s with
  | false =>
    rw [b.pass_room s k first last report hk ho]
    exact passed_window h k first last report hk hf hle hp
  | true =>
    cases hr : s.reset.1 with
    | true => exact passed_granted h k first last report hk ho hr hlast
    | false =>
      have hdoubled : b.Moves s { b with limit := b.limit * 2 } s.reset.2 := by
        have hm := s.moves_refused b.slot hr
        refine ⟨rfl, ⟨1, by simp⟩, hm, ?_⟩
        have hreg : b.slot ∈ s.reset.2.registered := by
          rw [Shared.registered, s.slots_reset]
          exact h.registered
        exact { h.elsewhere hreg (hm.sound h.sound) hm.nextId_le with
          limit_pos := Nat.mul_pos h.limit_pos (by decide) }
      rw [b.pass_refused s k first last report hk ho hr]
      obtain ⟨b', s', hw, hpass⟩ := passed_window hdoubled.orderly k first last report hk hf hle
        (by rw [Shared.pending, s.slots_reset]; exact hp)
      have hsame : SameText b b' :=
        ⟨hpass.same.texts, hpass.same.handle, hpass.same.lookahead, hpass.same.depth⟩
      refine ⟨b', s', hw, hdoubled.trans hpass.moves, hsame, hpass.window, hpass.pending, ?_⟩
      rw [← s.contexts_refused hr]
      exact hpass.links

end

theorem Passed.touched {b b' : Buffer} {s s' : Shared} {k : Handle} {first last : Nat}
    (hpass : b.Passed s k first last b' s') (n : Nat) :
    b'.store.Touched n ↔ b.store.Touched n := by
  rw [hpass.window]
  exact Iff.rfl

/-- A pass that scans every line before the frontier that is neither linked nor touched leaves the
buffer current. -/
theorem Passed.current {b b' : Buffer} {s s' : Shared} {k : Handle} {first last : Nat}
    (hpass : b.Passed s k first last b' s') (hk : b.handle = some k)
    (hlinks : ∀ i, i < first ∨ min (last + 1) b.lineCount ≤ i → i < b.frontier →
      Linked k.language s.contexts b.lineList i ∨ b.store.Touched i) : b'.Current s' := by
  intro _ k' hk' i hi
  rw [hpass.same.handle, hk] at hk'
  obtain rfl := Option.some.inj hk'
  by_cases ht : b.store.Touched i
  · exact .inr ((hpass.touched i).2 ht)
  · exact .inl (hpass.links i (.inl hi) fun hout hlt => (hlinks i hout hlt).resolve_right ht)

/-! ## Asking for lines -/

section
variable {b : Buffer} {s : Shared} (h : b.Orderly s)
include h

omit h in
theorem same_sync (b : Buffer) (s : Shared) : SameText b (b.sync s).1 := by
  rcases b.sync_cases s with ⟨-, hs⟩ | ⟨-, hs⟩ <;> rw [hs] <;> exact ⟨rfl, rfl, rfl, rfl⟩

/-- Asking for a line changes no text, and is refused only if a sum is.  Afterwards, outside of
transactions and unless the sum came out wrong, the lines up to the one asked for are linked. -/
theorem ensure_spec (line lookahead : Nat) :
    ∃ result b' s', b.ensure s line lookahead = ⟨result, b', s'⟩ ∧ b.Keeps s b' s' ∧ SameText b b' ∧
      (result = .ok () ∨ s.sums.add? line lookahead = none ∧ result = .error .overflow) ∧
      (result = .ok () → s.sums.Exact line lookahead → b.Current s → b.store.editing = false →
        line < b.lineCount → ∀ k, b.handle = some k → ∀ i, i ≤ line →
          Linked k.language s'.contexts b'.lineList i) := by
  have hsync := keeps_sync h
  have hsame := same_sync b s
  have hpending := b.pending_sync s
  have hcases := b.ensure_cases s line lookahead
  generalize b.sync s = synced at hsync hsame hpending hcases
  obtain ⟨b₁, s₁⟩ := synced
  dsimp only at hsync hsame hpending hcases
  rcases hcases with ⟨hdone, hrun⟩ | ⟨hgo, ⟨hadd, hrun⟩ | ⟨last, hadd, hrun⟩⟩
  · refine ⟨.ok (), b₁, s₁, hrun, hsync, hsame, .inl rfl, ?_⟩
    intro _ _ hc he hline k hk i hi
    exact (hsync.current hc).linked (hsame.editing.trans he) hpending (hsame.handle.trans hk) i
      (by omega)
  · exact ⟨_, b₁, s₁, hrun, hsync, hsame, .inr ⟨hadd, rfl⟩, fun hresult => by cases hresult⟩
  · have hcount := hsame.lineCount
    cases hk : b₁.handle with
    | none =>
      refine ⟨.ok (), b₁, s₁, hrun.trans (b₁.pass_none s₁ _ _ _ hk), hsync, hsame, .inl rfl, ?_⟩
      intro _ _ _ _ _ k hk'
      rw [← hsame.handle, hk] at hk'
      cases hk'
    | some k =>
      obtain ⟨b₂, s₂, hpassed, hpass⟩ := passed hsync.orderly k b₁.frontier
        (min last (b.lineCount - 1)) false hk (by omega) (Nat.le_refl _) (fun _ => by omega) hpending
      refine ⟨.ok (), b₂, s₂, hrun.trans hpassed, ⟨hsync.toMoves.trans hpass.moves, ?_⟩,
        hsame.trans hpass.same, .inl rfl, ?_⟩
      · intro hc
        exact hpass.current hk fun i _ hlt => hsync.current hc hpending k hk i hlt
      · intro _ hexact hc he hline k' hk' i hi
        rw [← hsame.handle, hk] at hk'
        obtain rfl := Option.some.inj hk'
        have hlast := hexact last hadd
        exact hpass.links i (.inr (by omega)) fun _ =>
          (hsync.current hc).linked (hsame.editing.trans he) hpending hk i

/-- Where the sum fits, the line is had. -/
theorem ensure_of_fits {line lookahead : Nat} (hfits : s.sums.Fits line lookahead) :
    ∃ b' s', b.ensure s line lookahead = ⟨.ok (), b', s'⟩ ∧ b.Keeps s b' s' ∧ SameText b b' ∧
      (b.Current s → b.store.editing = false → line < b.lineCount →
        ∀ k, b.handle = some k → ∀ i, i ≤ line → Linked k.language s'.contexts b'.lineList i) := by
  obtain ⟨result, b', s', hrun, hkeeps, hsame, rfl | ⟨hnone, -⟩, hlinks⟩ :=
    ensure_spec h line lookahead
  · exact ⟨b', s', hrun, hkeeps, hsame, hlinks rfl hfits.exact⟩
  · cases hfits.symm.trans hnone

theorem keeps_ensure (line lookahead : Nat) :
    b.Keeps s (b.ensure s line lookahead).buffer (b.ensure s line lookahead).shared := by
  obtain ⟨result, b', s', hrun, hkeeps, -⟩ := ensure_spec h line lookahead
  rw [hrun]
  exact hkeeps

/-! ## Closing transactions -/

theorem keeps_inner (hinner : 1 < b.store.depth) :
    b.Keeps s { b with store := { b.store with depth := b.store.depth - 1 } } s := by
  have hediting : b.store.editing = true := by simp [TextStore.editing]; omega
  refine ⟨⟨rfl, ⟨0, (Nat.mul_one _).symm⟩, .refl _ _, ⟨h.limit_pos, h.unhighlighted,
    ⟨h.framed.lines_pos, h.framed.unchanged, h.framed.changed⟩, fun _ => h.window hediting,
    h.registered, h.sound, h.issued⟩⟩, ?_⟩
  intro hc hp k hk i hi
  rcases hc hp k hk i hi with hlink | ⟨-, ht⟩
  · exact .inl hlink
  · exact .inr ⟨by simp [TextStore.editing]; omega, ht⟩

omit h in
/-- The buffer with its outermost transaction closed. -/
def closed (b : Buffer) : Buffer :=
  { b with store := { b.store with depth := 0 } }

omit h in
/-- What is done when the outermost transaction has changed lines `first` to `last`. -/
def mend (b : Buffer) (s : Shared) (first last : Nat) : Outcome Unit :=
  if (b.closed.sync s).1.frontier < first then ⟨.ok (), (b.closed.sync s).1, (b.closed.sync s).2⟩
  else (b.closed.sync s).1.pass (b.closed.sync s).2 (first - 1) (last + 1) true

theorem moves_closed : b.Moves s b.closed s :=
  ⟨rfl, ⟨0, (Nat.mul_one _).symm⟩, .refl _ _, ⟨h.limit_pos, h.unhighlighted,
    ⟨h.framed.lines_pos, h.framed.unchanged, h.framed.changed⟩, fun he => (by cases he),
    h.registered, h.sound, h.issued⟩⟩

omit h in
/-- With the outermost transaction closed and a rebuild answered, the links that are broken are
those of lines that the transaction may have changed. -/
theorem broken_closed (hc : b.Current s) (first last : Nat) (hfirst : b.store.first = some first)
    (hlast : b.store.last = some last) (k : Handle) (hk : b.handle = some k) (i : Nat)
    (hi : i < (b.closed.sync s).1.frontier) :
    Linked k.language (b.closed.sync s).2.contexts (b.closed.sync s).1.lineList i ∨
      first ≤ i ∧ i ≤ last + 1 := by
  rcases b.closed.sync_cases s with ⟨-, hs⟩ | ⟨hp, hs⟩
  · rw [hs] at hi
    exact absurd hi (Nat.not_lt_zero i)
  · rw [hs] at hi ⊢
    rcases hc hp k hk i hi with hlink | ⟨-, m, n, hm, hn, hmi, hin⟩
    · exact .inl hlink
    · rw [hfirst] at hm
      rw [hlast] at hn
      obtain rfl := Option.some.inj hm
      obtain rfl := Option.some.inj hn
      exact .inr ⟨hmi, hin⟩

/-- A pass over the window of the transaction, from one line before to one after, mends the links
that it broke; a window past the frontier has broken none. -/
theorem keeps_mended (first last : Nat) (hfirst : b.store.first = some first)
    (hlast : b.store.last = some last) (k : Handle) (hk : b.handle = some k)
    (hwindow : first < b.lineCount ∨ b.frontier ≤ b.lineCount) :
    b.Keeps s (b.mend s first last).buffer (b.mend s first last).shared := by
  have hmoved := moves_closed h
  have hsync := keeps_sync hmoved.orderly
  have hsame := same_sync b.closed s
  have hpending := b.closed.pending_sync s
  have hbroken := fun hc : b.Current s => broken_closed hc first last hfirst hlast k hk
  have hfrontier : (b.closed.sync s).1.frontier ≤ b.frontier := by
    rcases b.closed.sync_cases s with ⟨-, hs⟩ | ⟨-, hs⟩
    · rw [hs]; exact Nat.zero_le _
    · rw [hs]; exact Nat.le_refl _
  have hcount : (b.closed.sync s).1.lineCount = b.lineCount := hsame.lineCount
  have hhandle : (b.closed.sync s).1.handle = some k := hsame.handle.trans hk
  have hdepth : (b.closed.sync s).1.store.depth = 0 := hsame.depth
  unfold mend
  generalize b.closed.sync s = synced at *
  obtain ⟨c, s₁⟩ := synced
  dsimp only at *
  split
  · next hpast =>
    refine ⟨hmoved.trans hsync.toMoves, ?_⟩
    intro hc _ k' hk' i hi
    have hi : i < c.frontier := hi
    rw [hhandle] at hk'
    obtain rfl := Option.some.inj hk'
    rcases hbroken hc i hi with hlink | hin
    · exact .inl hlink
    · omega
  · next hreach =>
    obtain ⟨c₂, s₂, hrun, hpass⟩ := passed hsync.orderly k (first - 1) (last + 1) true hhandle
      (by omega) (by omega) (fun he => by simp [TextStore.editing, hdepth] at he) hpending
    rw [hrun]
    refine ⟨(hmoved.trans hsync.toMoves).trans hpass.moves, ?_⟩
    intro hc
    refine hpass.current hhandle ?_
    intro i hout hi
    rcases hbroken hc i hi with hlink | hin
    · exact .inl hlink
    · refine .inl (linked_of_length_le _ _ _ i ?_)
      rw [lineList_length]
      omega

omit h in
/-- The courses of closing a transaction: none is open; inner transactions, and those that changed
nothing or have no definition to go by, are closed and no more; others are mended. -/
theorem editEnd_cases (hframed : b.store.Framed) :
    b.store.depth = 0 ∧ b.editEnd s = ⟨.ok (), b, s⟩ ∨
    1 < b.store.depth ∧
      b.editEnd s = ⟨.ok (), { b with store := { b.store with depth := b.store.depth - 1 } }, s⟩ ∨
    b.store.depth = 1 ∧ (b.store.changed = false ∨ b.handle = none) ∧
      b.editEnd s = ⟨.ok (), b.closed, s⟩ ∨
    ∃ first last k, b.store.depth = 1 ∧ b.store.first = some first ∧ b.store.last = some last ∧
      first ≤ last ∧ b.handle = some k ∧ b.editEnd s = b.mend s first last := by
  unfold editEnd
  rcases b.store.finish_cases with ⟨hzero, hf⟩ | ⟨hinner, hf⟩ | ⟨hone, hf⟩
  · rw [hf]
    exact .inl ⟨hzero, rfl⟩
  · rw [hf]
    exact .inr (.inl ⟨hinner, rfl⟩)
  · have hf : b.store.finish = (true, b.closed.store) := hf
    have hclosed : ({ b with store := b.closed.store } : Buffer) = b.closed := rfl
    simp only [hf, hclosed]
    cases hchanged : b.store.changed with
    | false =>
      have hchanged : b.closed.store.changed = false := hchanged
      exact .inr (.inr (.inl ⟨hone, .inl rfl, by simp [hchanged]⟩))
    | true =>
      obtain ⟨first, last, hfirst, hlast, hle⟩ := hframed.changed hchanged
      have hchanged : b.closed.store.changed = true := hchanged
      have hfirst' : b.closed.store.first = some first := hfirst
      have hlast' : b.closed.store.last = some last := hlast
      have hle' : ¬last < first := Nat.not_lt.2 hle
      cases hk : b.handle with
      | none =>
        exact .inr (.inr (.inl ⟨hone, .inr rfl, by simp [hchanged, hfirst', hlast', hle']⟩))
      | some k =>
        exact .inr (.inr (.inr ⟨first, last, k, hone, hfirst, hlast, hle, rfl,
          by simp [hchanged, hfirst', hlast', hle', mend]⟩))

theorem keeps_editEnd : b.Keeps s (b.editEnd s).buffer (b.editEnd s).shared := by
  rcases editEnd_cases (s := s) h.framed with ⟨-, he⟩ | ⟨hinner, he⟩ | ⟨hone, hquiet, he⟩ |
      ⟨first, last, k, hone, hfirst, hlast, hle, hk, he⟩
  · rw [he]
    exact .refl h
  · rw [he]
    exact keeps_inner h hinner
  · rw [he]
    refine ⟨moves_closed h, ?_⟩
    intro hc hp k hk i hi
    rcases hquiet with hunchanged | hnone
    · rcases hc hp k hk i hi with hlink | ⟨-, first, last, hfirst, -⟩
      · exact .inl hlink
      · rw [(h.framed.unchanged hunchanged).1] at hfirst
        cases hfirst
    · rw [show b.handle = some k from hk] at hnone
      cases hnone
  · have hediting : b.store.editing = true := by simp [TextStore.editing, hone]
    rw [he]
    exact keeps_mended h first last hfirst hlast k hk (h.window hediting first hfirst)

end

end Highlighting.Buffer

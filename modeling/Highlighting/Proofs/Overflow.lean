import Highlighting.Proofs.Reachability
import Mathlib.Data.List.Induction

/-!
# Too many contexts

A pass that is entered with too many contexts in use asks for a reset.  `PassCall.Granted` and
`PassCall.Refused` say what comes of it either way; every pass that closing a transaction or asking
for a line enters, in any reachable session, follows them:

    the pass that an operation enters is all that it does       (enters_of_entered)
    an operation that enters none scans nothing                 (quiet_of_entered_none)
    granted                                                     (granted_run)
    refused                                                     (refused_run)
    the state after a pass, granted a reset or not              (run_cases)
    any reachable session                                       (overflow_protocol)

The limit of a buffer is the one it was opened with, doubled some number of times, and never 0.
-/

namespace Highlighting

/-- The pass that an operation enters: the buffer and what is shared at its beginning, the handle of
the buffer, and the arguments of the pass. -/
structure PassCall where
  buffer : Buffer
  shared : Shared
  handle : Handle
  first : Nat
  last : Nat
  report : Bool

namespace PassCall

/-- What the pass does. -/
def run (c : PassCall) : Outcome Unit :=
  c.buffer.pass c.shared c.first c.last c.report

/-- Is the pass granted a reset? -/
def resets (c : PassCall) : Bool :=
  c.buffer.overflows c.shared && c.shared.reset.1

/-- The pass under another limit. -/
def withLimit (c : PassCall) (limit : Nat) : PassCall :=
  { c with buffer := { c.buffer with limit := limit } }

/-- How many lines the pass scans when it begins at the first. -/
def count (c : PassCall) : Nat :=
  min (c.last + 1) c.buffer.lineCount

/-- What those lines hold, scanned from the default state with every context forgotten, and the
table afterwards. -/
def rescan (c : PassCall) : List Highlight × Contexts :=
  c.handle.language.scanLines c.shared.contexts.emptied .normal (c.buffer.texts.take c.count)

/-- The course of a pass that was granted a reset. -/
structure Granted (c : PassCall) (o : Outcome Answer) : Prop where
  result : o.result = .ok .done
  /-- No context that was issued before is in use. -/
  forgotten : ∀ id, id < c.shared.contexts.nextId → o.shared.contexts.resolve id = none
  limit : o.buffer.limit = c.buffer.limit
  texts : o.buffer.texts = c.buffer.texts
  /-- The lines from the first on are scanned in order, each once. -/
  scans : o.shared.scans =
    (scanRecords c.handle.id 0 (c.buffer.texts.take c.count)).reverse ++ c.shared.scans
  scanned : (o.buffer.lineList.take c.count).map (·.highlight) = c.rescan.1
  contexts : o.shared.contexts = c.rescan.2
  others : o.buffer.lineList.drop c.count = c.buffer.lineList.drop c.count
  frontier : o.buffer.frontier = c.last
  highlightedUpTo : o.buffer.highlightedUpTo o.shared = c.last
  events : o.buffer.events = c.buffer.events ++ [.rebuilt]
  suppressed : o.shared.suppressed = false
  pending : ∀ slot ∈ c.shared.registered, slot ≠ c.buffer.slot → o.shared.pending slot = true

/-- The course of a pass that was refused a reset. -/
structure Refused (c : PassCall) (o : Outcome Answer) : Prop where
  result : o.result = .ok .done
  /-- Every context that was in use still is, and means the same. -/
  kept : ∀ id p, c.shared.contexts.resolve id = some p → o.shared.contexts.resolve id = some p
  limit : o.buffer.limit = c.buffer.limit * 2
  /-- Everything but the limit and the clock is as under any limit that is not reached. -/
  unlimited : ∀ limit, c.shared.contexts.size < limit →
    (c.withLimit limit).run = ⟨.ok (), { o.buffer with limit := limit },
      { o.shared with sinceReset := c.shared.sinceReset, pauses := c.shared.pauses }⟩

end PassCall

namespace Buffer

/-- The pass that closing a transaction or asking for a line enters, if it enters one. -/
def entered (b : Buffer) (s : Shared) : BufferOp → Option PassCall
  | .editEnd =>
    match b.store.first, b.store.last, b.handle with
    | some first, some last, some h =>
      if b.store.depth = 1 ∧ first ≤ (b.closed.sync s).1.frontier then
        some ⟨(b.closed.sync s).1, (b.closed.sync s).2, h, first - 1, last + 1, true⟩
      else none
    | _, _, _ => none
  | .ensure line lookahead =>
    match b.handle, s.sums.add? line lookahead with
    | some h, some last =>
      if line < b.lineCount ∧ (b.sync s).1.frontier ≤ line then
        some ⟨(b.sync s).1, (b.sync s).2, h, (b.sync s).1.frontier, min last (b.lineCount - 1),
          false⟩
      else none
    | _, _ => none
  | _ => none

end Buffer

/-! ## Entering a pass -/

namespace PassCall

/-- What holds when a pass is entered. -/
structure Ready (c : PassCall) : Prop where
  orderly : c.buffer.Orderly c.shared
  handle : c.buffer.handle = some c.handle
  first_le : c.first ≤ c.buffer.lineCount
  first_le_frontier : c.first ≤ c.buffer.frontier
  last_le : c.buffer.store.editing = true → c.last ≤ c.buffer.lineCount
  pending : c.shared.pending c.buffer.slot = false

/-- The pass is ready, is of this buffer, and is all that the operation does once a pending rebuild
has been answered. -/
structure EnteredBy (c : PassCall) (b : Buffer) (s : Shared) (op : BufferOp) : Prop where
  ready : c.Ready
  slot : c.buffer.slot = b.slot
  texts : c.buffer.texts = b.texts
  limit : c.buffer.limit = b.limit
  contexts : c.shared.contexts = s.contexts
  registered : c.shared.registered = s.registered
  run : Session.runOnBuffer b s op = Session.conclude c.run fun _ => .done

end PassCall

namespace Buffer

section
variable {b : Buffer} {s : Shared} (h : b.Orderly s) {op : BufferOp} {c : PassCall}
include h

omit h in
/-- Answering a rebuild forgets no context and gives no slot away. -/
theorem sync_shared (b : Buffer) (s : Shared) :
    (b.sync s).2.contexts = s.contexts ∧ (b.sync s).2.registered = s.registered ∧
      (b.sync s).1.limit = b.limit ∧ (b.sync s).1.frontier ≤ b.frontier := by
  rcases b.sync_cases s with ⟨-, hs⟩ | ⟨-, hs⟩ <;> rw [hs]
  · exact ⟨rfl, s.registered_takeRebuild _, rfl, Nat.zero_le _⟩
  · exact ⟨rfl, s.registered_takeRebuild _, rfl, Nat.le_refl _⟩

omit h in
theorem entered_editEnd (hc : b.entered s .editEnd = some c) :
    ∃ first last k, b.store.first = some first ∧ b.store.last = some last ∧ b.handle = some k ∧
      b.store.depth = 1 ∧ first ≤ (b.closed.sync s).1.frontier ∧
      c = ⟨(b.closed.sync s).1, (b.closed.sync s).2, k, first - 1, last + 1, true⟩ := by
  simp only [entered] at hc
  split at hc
  · next first last k hfirst hlast hk =>
    split at hc
    · next hgo => exact ⟨first, last, k, hfirst, hlast, hk, hgo.1, hgo.2, (Option.some.inj hc).symm⟩
    · cases hc
  · cases hc

omit h in
theorem entered_ensure {line lookahead : Nat} (hc : b.entered s (.ensure line lookahead) = some c) :
    ∃ k last, b.handle = some k ∧ s.sums.add? line lookahead = some last ∧ line < b.lineCount ∧
      (b.sync s).1.frontier ≤ line ∧
      c = ⟨(b.sync s).1, (b.sync s).2, k, (b.sync s).1.frontier, min last (b.lineCount - 1),
        false⟩ := by
  simp only [entered] at hc
  split at hc
  · next k last hk hadd =>
    split at hc
    · next hgo => exact ⟨k, last, hk, hadd, hgo.1, hgo.2, (Option.some.inj hc).symm⟩
    · cases hc
  · cases hc

theorem editEnd_of_entered (hc : b.entered s .editEnd = some c) : b.editEnd s = c.run := by
  obtain ⟨first, last, k, hfirst, hlast, hk, hone, hreach, rfl⟩ := entered_editEnd hc
  rcases editEnd_cases (s := s) h.framed with ⟨hzero, -⟩ | ⟨hinner, -⟩ | ⟨-, hquiet, -⟩ |
    ⟨m, n, -, -, hm, hn, -, -, he⟩
  · omega
  · omega
  · rcases hquiet with hunchanged | hnone
    · rw [(h.framed.unchanged hunchanged).1] at hfirst
      cases hfirst
    · rw [hnone] at hk
      cases hk
  · obtain rfl := Option.some.inj (hfirst.symm.trans hm)
    obtain rfl := Option.some.inj (hlast.symm.trans hn)
    rw [he, mend, if_neg (by omega)]
    rfl

theorem enters_editEnd (hc : b.entered s .editEnd = some c) : c.EnteredBy b s .editEnd := by
  have hrun := editEnd_of_entered h hc
  obtain ⟨first, last, k, hfirst, hlast, hk, hone, hreach, rfl⟩ := entered_editEnd hc
  have hclosed := moves_closed h
  have hsync := keeps_sync hclosed.orderly
  have hsame := same_sync b.closed s
  obtain ⟨hcontexts, hreg, hlimit, hfrontier⟩ := b.closed.sync_shared s
  have hediting : b.store.editing = true := by simp [TextStore.editing, hone]
  have hwindow := h.window hediting first hfirst
  have hcount : (b.closed.sync s).1.lineCount = b.lineCount := hsame.lineCount
  have hfrontier : (b.closed.sync s).1.frontier ≤ b.frontier := hfrontier
  refine ⟨⟨hsync.orderly, hsame.handle.trans hk, ?_, ?_, ?_, b.closed.pending_sync s⟩,
    hsync.slot, hsame.texts, hlimit, hcontexts, hreg, ?_⟩
  · show first - 1 ≤ (b.closed.sync s).1.lineCount
    omega
  · show first - 1 ≤ (b.closed.sync s).1.frontier
    omega
  · intro he
    have hdepth : (b.closed.sync s).1.store.depth = 0 := hsame.depth
    simp [TextStore.editing, hdepth] at he
  · show Session.conclude (b.editEnd s) _ = _
    rw [hrun]

omit h in
theorem ensure_of_entered {line lookahead : Nat}
    (hc : b.entered s (.ensure line lookahead) = some c) : b.ensure s line lookahead = c.run := by
  obtain ⟨k, last, -, hadd, hline, hreach, rfl⟩ := entered_ensure hc
  exact b.ensure_of_add s hline hreach hadd

theorem enters_ensure {line lookahead : Nat} (hc : b.entered s (.ensure line lookahead) = some c) :
    c.EnteredBy b s (.ensure line lookahead) := by
  have hrun := ensure_of_entered hc
  obtain ⟨k, last, hk, -, hline, hreach, rfl⟩ := entered_ensure hc
  have hsync := keeps_sync h
  have hsame := same_sync b s
  obtain ⟨hcontexts, hreg, hlimit, -⟩ := b.sync_shared s
  have hcount : (b.sync s).1.lineCount = b.lineCount := hsame.lineCount
  refine ⟨⟨hsync.orderly, hsame.handle.trans hk, ?_, Nat.le_refl _, ?_, b.pending_sync s⟩,
    hsync.slot, hsame.texts, hlimit, hcontexts, hreg, ?_⟩
  · show (b.sync s).1.frontier ≤ (b.sync s).1.lineCount
    omega
  · intro _
    show min last (b.lineCount - 1) ≤ (b.sync s).1.lineCount
    omega
  · show Session.conclude (b.ensure s line lookahead) _ = _
    rw [hrun]

theorem enters_of_entered (hc : b.entered s op = some c) : c.EnteredBy b s op := by
  cases op with
  | editEnd => exact enters_editEnd h hc
  | ensure line lookahead => exact enters_ensure h hc
  | _ => cases hc

omit h in
/-- Asking for a line that is highlighted, or when there is nothing to highlight by, answers a
pending rebuild and no more; so does a call that is refused. -/
theorem ensure_of_entered_none {line lookahead : Nat}
    (hc : b.entered s (.ensure line lookahead) = none) :
    ∃ result, b.ensure s line lookahead = ⟨result, (b.sync s).1, (b.sync s).2⟩ := by
  rcases b.ensure_cases s line lookahead with ⟨-, hrun⟩ | ⟨hgo, ⟨-, hrun⟩ | ⟨last, hadd, hrun⟩⟩
  · exact ⟨_, hrun⟩
  · exact ⟨_, hrun⟩
  · cases hk : b.handle with
    | none => exact ⟨_, hrun.trans (pass_none _ _ _ _ _ ((same_sync b s).handle.trans hk))⟩
    | some k =>
      simp only [entered, hk, hadd] at hc
      rw [if_pos hgo] at hc
      cases hc

/-- Closing a transaction whose window lies past the frontier answers a pending rebuild; closing an
inner one, or one that changed nothing, does not even do that. -/
theorem editEnd_of_entered_none (hc : b.entered s .editEnd = none) :
    b.editEnd s = ⟨.ok (), b, s⟩ ∨
    b.editEnd s = ⟨.ok (), { b with store := { b.store with depth := b.store.depth - 1 } }, s⟩ ∨
    b.editEnd s = ⟨.ok (), (b.closed.sync s).1, (b.closed.sync s).2⟩ := by
  rcases editEnd_cases (s := s) h.framed with ⟨-, he⟩ | ⟨-, he⟩ | ⟨hone, -, he⟩ |
    ⟨first, last, k, hone, hfirst, hlast, -, hk, he⟩
  · exact .inl he
  · exact .inr (.inl he)
  · refine .inr (.inl ?_)
    rw [he, closed, hone]
  · simp only [entered, hfirst, hlast, hk, hone, true_and] at hc
    rw [he, mend]
    split
    · exact .inr (.inr rfl)
    · next hreach =>
      rw [if_pos (by omega)] at hc
      cases hc

/-- An operation that enters no pass scans no line. -/
theorem quiet_of_entered_none (hop : op = .editEnd ∨ ∃ line lookahead, op = .ensure line lookahead)
    (hc : b.entered s op = none) :
    (Session.runOnBuffer b s op).shared.scans = s.scans ∧
      (Session.runOnBuffer b s op).shared.contexts = s.contexts := by
  rcases hop with rfl | ⟨line, lookahead, rfl⟩
  · show (b.editEnd s).shared.scans = _ ∧ (b.editEnd s).shared.contexts = _
    rcases editEnd_of_entered_none h hc with he | he | he <;> rw [he] <;> exact ⟨rfl, rfl⟩
  · show (b.ensure s line lookahead).shared.scans = _ ∧
      (b.ensure s line lookahead).shared.contexts = _
    obtain ⟨result, hrun⟩ := ensure_of_entered_none hc
    rw [hrun]
    exact ⟨rfl, rfl⟩

end

/-- A window goes by neither the limit nor the clock. -/
theorem window_elsewhere (b : Buffer) (s : Shared) (h : Handle) (first last : Nat) (report : Bool)
    (limit : Nat) (since : Option Nat) (pauses : List Nat) :
    { b with limit := limit }.window { s with sinceReset := since, pauses := pauses } h first last
        report =
      ⟨(b.window s h first last report).result,
        { (b.window s h first last report).buffer with limit := limit },
        { (b.window s h first last report).shared with
          sinceReset := since
          pauses := pauses }⟩ := by
  unfold window
  dsimp only
  generalize (if first = 0 then (.ok .normal : Except Refusal LineState)
    else (b.store.line (first - 1)).map (·.endState)) = before
  cases before with
  | error r => rfl
  | ok state =>
    dsimp only
    rw [annotateFrom_eq, annotateFrom_eq]
    rfl

end Buffer

/-! ## Courses -/

namespace PassCall

theorem refused_run (c : PassCall) (hc : c.Ready) (ho : c.buffer.overflows c.shared = true)
    (hr : c.shared.reset.1 = false) : c.Refused (Session.conclude c.run fun _ => .done) := by
  obtain ⟨since, pauses, hreset⟩ := c.shared.clock_refused hr
  have hrun := c.buffer.pass_refused c.shared c.handle c.first c.last c.report hc.handle ho hr
  rw [hreset, Buffer.window_elsewhere] at hrun
  obtain ⟨frontier, news, hw, -⟩ := Buffer.window_cases c.buffer c.shared c.handle c.first c.last
    c.report hc.first_le
  have hx := (Buffer.windowScan_grows hc.orderly c.handle c.first c.last).2.1
  unfold run
  rw [hrun]
  refine ⟨by rw [hw]; rfl, ?_, ?_, ?_⟩
  · intro id p hp
    rw [hw]
    exact (hx.resolve id (c.shared.contexts.lt_of_resolve hc.orderly.sound id p hp)).trans hp
  · rfl
  · intro limit hlimit
    have hroom : (c.withLimit limit).buffer.overflows c.shared = false := by
      show decide (limit ≤ c.shared.contexts.size) = false
      exact decide_eq_false (Nat.not_le.2 hlimit)
    have hplain := (c.withLimit limit).buffer.pass_room c.shared c.handle c.first c.last c.report
      hc.handle hroom
    have hsame := c.buffer.window_elsewhere c.shared c.handle c.first c.last c.report limit
      c.shared.sinceReset c.shared.pauses
    have hok : (c.buffer.window c.shared c.handle c.first c.last c.report).result = .ok () := by
      rw [hw]
    refine hplain.trans (hsame.trans ?_)
    rw [hok]
    rfl

theorem resets_iff (c : PassCall) :
    c.resets = true ↔ c.buffer.overflows c.shared = true ∧ c.shared.reset.1 = true :=
  Bool.and_eq_true_iff

/-- Either course of a pass: every line up to its end is scanned after a reset, or its window is. -/
theorem run_cases (c : PassCall) (hc : c.Ready) :
    c.resets = true ∧ c.run = ⟨.ok (),
      { c.buffer with
        store := { c.buffer.store with
          lines := (annotateAt 0 (c.buffer.windowScan (c.shared.granted c.buffer.slot) c.handle 0
            c.last).1 c.buffer.lineList).toArray }
        frontier := c.last
        events := c.buffer.events ++ [.rebuilt] },
      (c.buffer.windowShared (c.shared.granted c.buffer.slot) c.handle 0 c.last).suppress false⟩ ∨
    c.resets = false ∧ ∃ frontier news limit since pauses, c.run = ⟨.ok (),
      { c.buffer with
        store := { c.buffer.store with
          lines := (annotateAt c.first (c.buffer.windowScan c.shared c.handle c.first c.last).1
            c.buffer.lineList).toArray }
        frontier := frontier
        limit := limit
        events := c.buffer.events ++ news },
      { c.buffer.windowShared c.shared c.handle c.first c.last with
        sinceReset := since
        pauses := pauses }⟩ ∧
      (frontier = max c.first (min (c.last + 1) c.buffer.lineCount) ∨
        frontier = c.buffer.frontier ∧
          max c.first (min (c.last + 1) c.buffer.lineCount) ≤ c.buffer.frontier) ∧
      Buffer.News c.report c.first
        (max (max c.first (min (c.last + 1) c.buffer.lineCount)) c.buffer.frontier)
        c.buffer.lineCount news := by
  cases hr : c.resets with
  | true =>
    obtain ⟨ho, hreset⟩ := c.resets_iff.1 hr
    exact .inl ⟨rfl, c.buffer.pass_granted c.shared c.handle c.first c.last c.report hc.handle ho
      hreset hc.orderly.registered hc.orderly.limit_pos⟩
  | false =>
    exact .inr ⟨rfl, c.buffer.pass_windowed c.shared c.handle c.first c.last c.report hc.handle
      hc.first_le (by simpa [resets] using hr)⟩

/-- The line that the pass scans first. -/
def start (c : PassCall) : Nat :=
  if c.resets then 0 else c.first

/-- Either course scans the lines of its window in order, each once, and no other. -/
theorem scans_run (c : PassCall) (hc : c.Ready) :
    c.run.shared.scans =
      (scanRecords c.handle.id c.start (c.buffer.windowTexts c.start c.last)).reverse ++
        c.shared.scans := by
  rcases c.run_cases hc with ⟨hr, hrun⟩ | ⟨hr, frontier, news, limit, since, pauses, hrun, -⟩ <;>
    rw [hrun, start, hr]
  · exact congrArg (_ ++ ·) c.shared.scans_reset
  · rfl

/-- The table in which a granted pass scans is the emptied one. -/
theorem windowScan_granted (c : PassCall) (hr : c.shared.reset.1 = true) :
    c.buffer.windowTexts 0 c.last = c.buffer.texts.take c.count ∧
      c.buffer.windowScan (c.shared.granted c.buffer.slot) c.handle 0 c.last = c.rescan := by
  have htexts : c.buffer.windowTexts 0 c.last = c.buffer.texts.take c.count := by
    rw [Buffer.windowTexts, textsBetween, List.drop_zero, List.map_take]
    rfl
  refine ⟨htexts, ?_⟩
  rw [Buffer.windowScan, htexts, c.shared.contexts_granted c.buffer.slot hr]
  rfl

theorem rescan_grows (c : PassCall) :
    c.shared.contexts.emptied.Extends c.rescan.2 :=
  (c.handle.language.scanLines_grows c.shared.contexts.emptied .normal _ (.emptied _)
    (Contexts.issued_normal _)).2.1

theorem granted_run (c : PassCall) (hc : c.Ready) (ho : c.buffer.overflows c.shared = true)
    (hr : c.shared.reset.1 = true) : c.Granted (Session.conclude c.run fun _ => .done) := by
  obtain ⟨htexts, hscan⟩ := c.windowScan_granted hr
  have hlen : c.rescan.1.length = c.count := by
    rw [rescan, Language.scanLines_length, List.length_take, c.buffer.texts_length, count]
    omega
  have hcount : c.count ≤ c.buffer.lineCount := Nat.min_le_right _ _
  unfold run
  rw [c.buffer.pass_granted c.shared c.handle c.first c.last c.report hc.handle ho hr
    hc.orderly.registered hc.orderly.limit_pos, hscan]
  refine ⟨rfl, ?_, rfl, ?_, ?_, ?_, ?_, ?_, rfl, ?_, rfl, rfl, ?_⟩
  · intro id hid
    show (c.buffer.windowScan (c.shared.granted c.buffer.slot) c.handle 0 c.last).2.resolve id =
      none
    rw [hscan, c.rescan_grows.resolve id hid, Contexts.resolve_emptied]
  · exact annotateAt_texts 0 c.rescan.1 c.buffer.lineList
  · show (scanRecords c.handle.id 0 (c.buffer.windowTexts 0 c.last)).reverse ++
      (c.shared.granted c.buffer.slot).scans = _
    rw [htexts]
    exact congrArg (_ ++ ·) c.shared.scans_reset
  · show ((annotateAt 0 c.rescan.1 c.buffer.lineList).take c.count).map (·.highlight) = _
    rw [← hlen]
    exact annotateAt_take _ _ (by rw [hlen]; exact hcount)
  · show (c.buffer.windowScan (c.shared.granted c.buffer.slot) c.handle 0 c.last).2 = _
    rw [hscan]
  · show (annotateAt 0 c.rescan.1 c.buffer.lineList).drop c.count = _
    rw [← hlen]
    exact annotateAt_drop _ _
  · have hanswered := c.shared.pending_granted_self c.buffer.slot
    exact if_neg fun hp => Bool.false_ne_true (hanswered.symm.trans hp)
  · intro slot hslot hne
    exact c.shared.pending_granted_of_ne c.buffer.slot slot hslot hne

/-- The pass that a granted one makes of the lines from the first on, after the reset. -/
def nested (c : PassCall) : PassCall :=
  ⟨c.buffer.rebuilt, c.shared.granted c.buffer.slot, c.handle, 0, c.last, false⟩

/-- The nested pass is the same function called once more.  It finds room, so that it asks for no
reset and nests no further. -/
theorem nested_run (c : PassCall) (hc : c.Ready) (ho : c.buffer.overflows c.shared = true)
    (hr : c.shared.reset.1 = true) :
    c.nested.buffer.overflows c.nested.shared = false ∧
    c.run = (match c.nested.run with
      | ⟨.error r, b, s⟩ => ⟨.error r, b, s⟩
      | ⟨.ok (), b, s⟩ => ⟨.ok (), { b with frontier := c.last }, s.suppress false⟩) :=
  ⟨c.buffer.overflows_granted c.shared hc.orderly.limit_pos hr,
    c.buffer.pass_nested c.shared c.handle c.first c.last c.report hc.handle ho hr
      hc.orderly.registered⟩

end PassCall

namespace Session

/-! ## Limits -/

/-- The settings with which the buffer of a name was opened last. -/
def openedWith (standard : Settings) (name : String) (ops : List Op) : Option Settings :=
  ops.foldl (fun found op =>
    match op with
    | .newBuffer opened _ settings =>
      if opened = name then some (settings.getD standard) else found
    | _ => found) none

theorem openedWith_other (standard : Settings) (name : String) (ops : List Op) (op : Op)
    (hop : ∀ name text settings, op ≠ .newBuffer name text settings) :
    openedWith standard name (ops ++ [op]) = openedWith standard name ops := by
  rw [openedWith, List.foldl_append, List.foldl_cons, List.foldl_nil]
  cases op with
  | newBuffer name text settings => exact absurd rfl (hop name text settings)
  | _ => rfl

theorem openedWith_newBuffer (standard : Settings) (name : String) (ops : List Op)
    (opened : String) (text : Option String) (use : Option Settings) :
    openedWith standard name (ops ++ [.newBuffer opened text use]) =
      if opened = name then some (use.getD standard) else openedWith standard name ops := by
  rw [openedWith, List.foldl_append]
  rfl

/-- The limit that settings make, doubled some number of times. -/
def DoubledLimit (use : Option Settings) (limit : Nat) : Prop :=
  ∃ settings k, use = some settings ∧ limit = max 1 settings.maxContexts * 2 ^ k

theorem DoubledLimit.double {use : Option Settings} {limit limit' : Nat}
    (h : DoubledLimit use limit) (hl : ∃ k, limit' = limit * 2 ^ k) :
    DoubledLimit use limit' := by
  obtain ⟨settings, k, huse, rfl⟩ := h
  obtain ⟨n, rfl⟩ := hl
  exact ⟨settings, k + n, huse, by rw [Nat.pow_add, Nat.mul_assoc]⟩

/-- The limit of each buffer is that of the settings it was opened with, doubled some number of
times. -/
theorem limit_after (resetDelay : Nat) (settings : Settings) (sums : Sums) (ops : List Op) :
    ((start resetDelay settings sums).after ops).settings = settings ∧
    ∀ e ∈ ((start resetDelay settings sums).after ops).buffers,
      DoubledLimit (openedWith settings e.1 ops) e.2.limit := by
  induction ops using List.reverseRecOn with
  | nil => exact ⟨rfl, fun e he => by cases he⟩
  | append_singleton ops op ih =>
    have hreach : ((start resetDelay settings sums).after ops).Reachable :=
      reachable_after resetDelay settings ops
    rw [after_concat]
    generalize (start resetDelay settings sums).after ops = s at ih hreach
    obtain ⟨hsettings, hlimits⟩ := ih
    refine ⟨(settings_step s op).trans hsettings, ?_⟩
    intro e he
    have hstep := buffersStep hreach.orderly op
    generalize (s.step op).2 = s' at hstep he
    cases hstep with
    | aside hop hbuffers =>
      rw [openedWith_other _ _ _ _ (by rintro _ _ _ rfl; cases hop)]
      exact hlimits e (hbuffers ▸ he)
    | asked =>
      rw [openedWith_other _ _ _ _ fun _ _ _ h => by cases h]
      exact hlimits e he
    | missing _ hnone =>
      rw [openedWith_other _ _ _ _ fun _ _ _ h => by cases h]
      exact hlimits e he
    | used bop hlookup =>
      have hmem := mem_of_lookup hlookup
      rw [openedWith_other _ _ _ _ fun _ _ _ h => by cases h]
      rcases mem_put he with rfl | ⟨hold, -⟩
      · have hkeeps := Buffer.keeps_runOnBuffer (hreach.orderly.buffers _ hmem) bop
        exact (hlimits _ hmem).double hkeeps.limit
      · exact hlimits e hold
    | given h hop hlookup =>
      have hmem := mem_of_lookup hlookup
      rw [openedWith_other _ _ _ _ (by rintro _ _ _ rfl; cases hop)]
      rcases mem_put he with rfl | ⟨hold, -⟩
      · have hkeeps := Buffer.keeps_setHandle (hreach.orderly.buffers _ hmem) h
        exact (hlimits _ hmem).double hkeeps.limit
      · exact hlimits e hold
    | @opened name text use _ b hopened hbuffers =>
      rw [openedWith_newBuffer]
      rw [hbuffers] at he
      rcases mem_put he with rfl | ⟨hold, hne⟩
      · have hlimit := hopened.limit
        rw [hsettings, Nat.max_comm] at hlimit
        exact ⟨use.getD settings, 0, if_pos rfl, by rw [hlimit, Nat.pow_zero, Nat.mul_one]⟩
      · rw [if_neg (Ne.symm hne)]
        exact hlimits e (mem_closeBuffer hold)
    | closed name =>
      rw [openedWith_other _ _ _ _ fun _ _ _ h => by cases h]
      exact hlimits e (mem_closeBuffer he)

/-! ## Every reachable session -/

/-- In every session that is reached from the start, whatever was done: the limit of each buffer is
that of the settings it was opened with, doubled some number of times, and not 0.  When closing a
transaction or asking for a line enters a pass with too many contexts in use, and the reset is
granted, the pass takes the course of a granted one: the other buffers have a rebuild pending, and
the pass nests once.  When the reset is refused, it takes the course of a refused one.  When they
enter no pass, nothing is scanned.  A search for regions does nothing but ask for lines. -/
theorem overflow_protocol (resetDelay : Nat) (settings : Settings) (sums : Sums) (ops : List Op)
    (name : String) (b : Buffer)
    (hb : (name, b) ∈ ((start resetDelay settings sums).after ops).buffers) :
    (0 < b.limit ∧ DoubledLimit (openedWith settings name ops) b.limit) ∧
    (∀ op call, b.entered ((start resetDelay settings sums).after ops).shared op = some call →
      call.EnteredBy b ((start resetDelay settings sums).after ops).shared op ∧
      (call.buffer.overflows call.shared = true →
        (call.shared.reset.1 = true →
          call.Granted (runOnBuffer b ((start resetDelay settings sums).after ops).shared op) ∧
          (∀ e ∈ ((start resetDelay settings sums).after ops).buffers, e.1 ≠ name →
            (runOnBuffer b ((start resetDelay settings sums).after ops).shared op).shared.pending
              e.2.slot = true) ∧
          call.nested.buffer.overflows call.nested.shared = false ∧
          call.run = (match call.nested.run with
            | ⟨.error r, b, s⟩ => ⟨.error r, b, s⟩
            | ⟨.ok (), b, s⟩ => ⟨.ok (), { b with frontier := call.last }, s.suppress false⟩)) ∧
        (call.shared.reset.1 = false →
          call.Refused (runOnBuffer b ((start resetDelay settings sums).after ops).shared op)))) ∧
    ∀ op, (op = .editEnd ∨ ∃ line lookahead, op = .ensure line lookahead) →
      b.entered ((start resetDelay settings sums).after ops).shared op = none →
      (runOnBuffer b ((start resetDelay settings sums).after ops).shared op).shared.scans =
          ((start resetDelay settings sums).after ops).shared.scans ∧
        (runOnBuffer b ((start resetDelay settings sums).after ops).shared op).shared.contexts =
          ((start resetDelay settings sums).after ops).shared.contexts := by
  have hreach : ((start resetDelay settings sums).after ops).Reachable :=
    .after (.start resetDelay settings) ops fun _ _ => trivial
  have hlimit := (limit_after resetDelay settings sums ops).2 _ hb
  generalize (start resetDelay settings sums).after ops = s at hb hreach ⊢
  have ho : b.Orderly s.shared := hreach.orderly.buffers _ hb
  refine ⟨⟨ho.limit_pos, hlimit⟩, ?_,
    fun op hop hnone => Buffer.quiet_of_entered_none ho hop hnone⟩
  intro op call hcall
  have hentered := Buffer.enters_of_entered ho hcall
  refine ⟨hentered, ?_⟩
  intro hover
  rw [hentered.run]
  refine ⟨?_, call.refused_run hentered.ready hover⟩
  intro hr
  have hgranted := call.granted_run hentered.ready hover hr
  refine ⟨hgranted, fun e he hne => hgranted.pending _ ?_ fun heq => hne ?_,
    call.nested_run hentered.ready hover hr⟩
  · rw [hentered.registered]
    exact (hreach.orderly.buffers e he).registered
  · exact hreach.orderly.distinct e he _ hb (heq.trans hentered.slot)

/-- A buffer with room for one context, and one context that is in use already. -/
def crowded (suppressed : Bool) : List Op :=
  [.define "braces" (.ok .braces) false, .newBuffer "text" (some "\x7b\x7d") (some ⟨1, 0, 8, 0⟩),
    .useHandle "text" "braces", .intern "a", .suppress suppressed]

theorem overflow_protocol_crowded :
    (∃ b call, ("text", b) ∈ ((start 0 .standard).after (crowded false)).buffers ∧
      b.entered ((start 0 .standard).after (crowded false)).shared (.ensure 0 0) = some call ∧
      call.Granted
        (runOnBuffer b ((start 0 .standard).after (crowded false)).shared (.ensure 0 0))) ∧
    ∃ b call, ("text", b) ∈ ((start 0 .standard).after (crowded true)).buffers ∧
      b.entered ((start 0 .standard).after (crowded true)).shared (.ensure 0 0) = some call ∧
      call.Refused
        (runOnBuffer b ((start 0 .standard).after (crowded true)).shared (.ensure 0 0)) := by
  have hall : ∀ suppressed, ((start 0 .standard).after (crowded suppressed)).buffers.all (fun e =>
      (e.2.entered ((start 0 .standard).after (crowded suppressed)).shared (.ensure 0 0)).any
        fun call => call.buffer.overflows call.shared &&
          call.shared.reset.1 == !suppressed) = true := by
    decide +kernel
  have hcall : ∀ suppressed, ∃ b call,
      ("text", b) ∈ ((start 0 .standard).after (crowded suppressed)).buffers ∧
      b.entered ((start 0 .standard).after (crowded suppressed)).shared (.ensure 0 0) = some call ∧
      call.buffer.overflows call.shared = true ∧ call.shared.reset.1 = !suppressed := by
    intro suppressed
    obtain ⟨b, hb⟩ : ∃ b, ((start 0 .standard).after (crowded suppressed)).buffers =
        [("text", b)] := ⟨_, rfl⟩
    have hone := hall suppressed
    rw [hb, List.all_cons, List.all_nil, Bool.and_true, Option.any_eq_true] at hone
    obtain ⟨call, hcall, hone⟩ := hone
    rw [Bool.and_eq_true, beq_iff_eq] at hone
    exact ⟨b, call, by simp [hb], hcall, hone⟩
  obtain ⟨b, call, hb, hcall₁, ho, hr⟩ := hcall false
  obtain ⟨b', call', hb', hcall₂, ho', hr'⟩ := hcall true
  have h := overflow_protocol 0 .standard .wrapping (crowded false) "text" b hb
  have h' := overflow_protocol 0 .standard .wrapping (crowded true) "text" b' hb'
  exact ⟨⟨b, call, hb, hcall₁, (((h.2.1 _ call hcall₁).2 ho).1 hr).1⟩,
    ⟨b', call', hb', hcall₂, ((h'.2.1 _ call' hcall₂).2 ho').2 hr'⟩⟩

end Session

end Highlighting

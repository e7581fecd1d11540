import Highlighting.Proofs.Incremental
import Highlighting.Proofs.Overflow

/-!
# Closing a transaction tells of what it makes stale

When the outermost transaction of a buffer is closed, the events that are added tell of every line
that may look different from then on: lines whose annotations are new, and lines before the old
frontier that no longer show what scanning them from scratch would find, which change when they are
asked for next.

    a line that no transaction has touched, nor any before it, is not stale        (not_stale)
    no pass entered  →  every line before the frontier is such a line
                                                              (untouched_of_entered_none)
    a pass entered  →  it tells of its window, and of the lines up to the frontier  (announces_run)
-/

namespace Highlighting

/-- Do these events tell that line `i` may look different? -/
def Told (news : List Event) (i : Nat) : Prop :=
  .rebuilt ∈ news ∨ ∃ first last, .linesChanged first last ∈ news ∧ first ≤ i ∧ i ≤ last

theorem Told.append {news : List Event} {i : Nat} (h : Told news i) (before : List Event) :
    Told (before ++ news) i := by
  rcases h with h | ⟨first, last, hmem, hle⟩
  · exact .inl (List.mem_append_right _ h)
  · exact .inr ⟨first, last, List.mem_append_right _ hmem, hle⟩

/-- Lines to be spelled again are lines of the buffer, and may look different. -/
def Respelled (news : List Event) (count : Nat) : Prop :=
  ∀ m n, .respell m n ∈ news → m ≤ n ∧ n < count ∧
    ∃ first last, .linesChanged first last ∈ news ∧ first ≤ m ∧ n ≤ last

theorem Respelled.append {news : List Event} {count : Nat} (h : Respelled news count)
    {before : List Event} (hbefore : ∀ m n, .respell m n ∉ before) :
    Respelled (before ++ news) count := by
  intro m n hmem
  obtain ⟨hle, hlt, first, last, hchanged, hin⟩ :=
    h m n ((List.mem_append.1 hmem).resolve_left (hbefore m n))
  exact ⟨hle, hlt, first, last, List.mem_append_right _ hchanged, hin⟩

namespace Buffer

/-- What line `i` shows is not what is found when the lines up to it are scanned in order, from the
default state and with no context yet. -/
def Stale (b : Buffer) (s : Shared) (k : Handle) (i : Nat) : Prop :=
  ∃ x found, b.lineList[i]? = some x ∧
    (k.language.fromScratch (b.texts.take (i + 1))).1[i]? = some found ∧
    ¬Shows s.contexts x.highlight (k.language.fromScratch (b.texts.take (i + 1))).2 found

/-- With these events, an operation that changes no text tells of every line that it annotates
differently or leaves stale. -/
structure Reports (b : Buffer) (s : Shared) (k : Handle) (o : Outcome Unit) (news : List Event) :
    Prop where
  result : o.result = .ok ()
  texts : o.buffer.texts = b.texts
  events : o.buffer.events = b.events ++ news
  changed : ∀ i x y, b.lineList[i]? = some x → o.buffer.lineList[i]? = some y →
    x.highlight ≠ y.highlight → Told news i
  stale : ∀ i < b.highlightedUpTo s, b.Stale s k i → Told news i
  respelled : Respelled news b.lineCount

/-! ## Lines that are not stale -/

section
variable {b : Buffer} {s : Shared} {k : Handle} (h : b.Orderly s)

include h in
theorem not_stale (hc : b.Current s) (hk : b.handle = some k) (i : Nat)
    (hi : i < b.highlightedUpTo s) (huntouched : ∀ j ≤ i, ¬b.store.Touched j) :
    ¬b.Stale s k i := by
  rintro ⟨x, found, hx, hfound, hshows⟩
  obtain ⟨hp, hi⟩ : s.pending b.slot = false ∧ i < b.frontier := by
    unfold highlightedUpTo at hi
    split at hi
    · omega
    · next hp => exact ⟨by simpa using hp, hi⟩
  have hlinks : ∀ j ≤ i, Linked k.language s.contexts b.lineList j := fun j hj =>
    (hc hp k hk j (by omega)).resolve_right (huntouched j hj)
  obtain ⟨found', hfound', hshows'⟩ :=
    shows_of_linked k.language s.contexts b.lineList i x h.sound hlinks hx
  obtain rfl := Option.some.inj (hfound'.symm.trans hfound)
  exact hshows hshows'

/-- Answering a pending rebuild tells of it, and of nothing else. -/
theorem events_sync (b : Buffer) (s : Shared) :
    ∃ news, (b.sync s).1.events = b.events ++ news ∧ ∀ m n, .respell m n ∉ news := by
  rcases b.sync_cases s with ⟨-, hs⟩ | ⟨-, hs⟩ <;> rw [hs]
  · exact ⟨[.rebuilt], rfl, by simp⟩
  · exact ⟨[], (List.append_nil _).symm, by simp⟩

theorem lineList_sync (b : Buffer) (s : Shared) : (b.sync s).1.lineList = b.lineList :=
  congrArg (·.lines.toList) (b.store_sync s)

/-- Where closing the outermost transaction enters no pass, its window lies past the frontier. -/
theorem untouched_of_entered_none (hc : b.entered s .editEnd = none) (hk : b.handle = some k)
    (hone : b.store.depth = 1) (i : Nat) (hi : i < b.highlightedUpTo s) : ¬b.store.Touched i := by
  rintro ⟨-, first, last, hfirst, hlast, hle, -⟩
  have hfrontier : (b.closed.sync s).1.frontier = b.highlightedUpTo s := b.closed.frontier_sync s
  simp only [entered, hfirst, hlast, hk, hone, true_and] at hc
  rw [if_pos (by omega)] at hc
  cases hc

/-- What annotates no line, and leaves none stale, need not tell of any. -/
theorem reports_of_lines {b' : Buffer} {s' : Shared} {news : List Event}
    (hstale : ∀ i < b.highlightedUpTo s, ¬b.Stale s k i) (hlines : b'.lineList = b.lineList)
    (hevents : b'.events = b.events ++ news) (hrespell : ∀ m n, .respell m n ∉ news) :
    b.Reports s k ⟨.ok (), b', s'⟩ news where
  result := rfl
  texts := congrArg (List.map _) hlines
  events := hevents
  changed i x y hx hy hne := by
    have hy : b'.lineList[i]? = some y := hy
    rw [hlines, hx] at hy
    exact absurd (congrArg (·.highlight) (Option.some.inj hy)) hne
  stale i hi hi' := absurd hi' (hstale i hi)
  respelled m n hmem := absurd hmem (hrespell m n)

end

/-! ## What a pass tells -/

/-- With these events, a pass that is to report tells of every line that it annotates differently,
and of every line from its first on up to the frontier. -/
structure Announces (c : PassCall) (news : List Event) : Prop where
  result : c.run.result = .ok ()
  texts : c.run.buffer.texts = c.buffer.texts
  events : c.run.buffer.events = c.buffer.events ++ news
  changed : ∀ i, c.run.buffer.lineList[i]? ≠ c.buffer.lineList[i]? → Told news i
  behind : ∀ i, c.first ≤ i → i < c.buffer.frontier → Told news i
  respelled : Respelled news c.buffer.lineCount

theorem announces_run (c : PassCall) (hc : c.Ready) (hreport : c.report = true) :
    ∃ news, Announces c news := by
  rcases c.run_cases hc with ⟨-, hrun⟩ | ⟨-, frontier, news, limit, since, pauses, hrun, -, hnews⟩
  · refine ⟨[.rebuilt], by rw [hrun], ?_, by rw [hrun], fun i _ => .inl (.head _),
      fun i _ _ => .inl (.head _), fun m n hmem => ?_⟩
    · rw [hrun]
      exact annotateAt_texts _ _ _
    · cases List.mem_singleton.1 hmem
  · have htold := hnews.changed hreport
    refine ⟨news, by rw [hrun], ?_, by rw [hrun], fun i hne => ?_, fun i hle hlt => ?_, ?_⟩
    · rw [hrun]
      exact annotateAt_texts _ _ _
    · rw [hrun] at hne
      have hne : (annotateAt c.first (c.buffer.windowScan c.shared c.handle c.first c.last).1
        c.buffer.lineList)[i]? ≠ c.buffer.lineList[i]? := hne
      have hlen := c.buffer.windowScan_length c.shared c.handle c.first c.last
      have hfrom : c.first ≤ i := Nat.not_lt.1 fun hlt => hne (annotateAt_before _ _ _ i hlt)
      have hto : i < c.first + (c.buffer.windowScan c.shared c.handle c.first c.last).1.length :=
        Nat.not_le.1 fun hle => hne (annotateAt_after _ _ _ i hle)
      exact .inr ⟨_, _, htold, hfrom, by omega⟩
    · exact .inr ⟨_, _, htold, hle, by omega⟩
    · intro m n hmem
      rcases hnews.only _ hmem with heq | ⟨m', n', heq, hfrom, hle, hto, hlt⟩
      · cases heq
      · obtain ⟨rfl, rfl⟩ := Event.respell.inj heq
        exact ⟨hle, hlt, _, _, htold, hfrom, hto⟩

/-! ## Closing a transaction -/

section
variable {b : Buffer} {s : Shared} {k : Handle} (h : b.Orderly s) (hc : b.Current s)
  (hk : b.handle = some k) (hone : b.store.depth = 1)
include h hc hk hone

theorem reports_unpassed (hnone : b.entered s .editEnd = none) :
    ∃ news, b.Reports s k (b.editEnd s) news := by
  have hstale : ∀ i < b.highlightedUpTo s, ¬b.Stale s k i := fun i hi =>
    not_stale h hc hk i hi fun j hj =>
      untouched_of_entered_none hnone hk hone j (Nat.lt_of_le_of_lt hj hi)
  rcases editEnd_of_entered_none h hnone with he | he | he <;> rw [he]
  · exact ⟨[], reports_of_lines hstale rfl (List.append_nil _).symm (by simp)⟩
  · exact ⟨[], reports_of_lines hstale rfl (List.append_nil _).symm (by simp)⟩
  · obtain ⟨news, hevents, hrespell⟩ := b.closed.events_sync s
    exact ⟨news, reports_of_lines hstale (b.closed.lineList_sync s) hevents hrespell⟩

omit hone in
theorem reports_passed (c : PassCall) (hentered : b.entered s .editEnd = some c) :
    ∃ news, b.Reports s k (b.editEnd s) news := by
  have hready := (enters_editEnd h hentered).ready
  have hrun := editEnd_of_entered h hentered
  obtain ⟨first, last, k', hfirst, -, -, -, -, rfl⟩ := entered_editEnd hentered
  obtain ⟨before, hbefore, hrespell⟩ := b.closed.events_sync s
  have hlines : (b.closed.sync s).1.lineList = b.lineList := b.closed.lineList_sync s
  have hfrontier : (b.closed.sync s).1.frontier = b.highlightedUpTo s := b.closed.frontier_sync s
  obtain ⟨news, hnews⟩ := announces_run _ hready rfl
  rw [hrun]
  refine ⟨before ++ news, hnews.result, ?_, ?_, ?_, ?_, ?_⟩
  · rw [hnews.texts]
    exact congrArg (List.map _) hlines
  · rw [hnews.events, ← List.append_assoc]
    exact congrArg (· ++ news) hbefore
  · intro i x y hx hy hne
    refine (hnews.changed i fun heq => hne ?_).append before
    rw [hy, hlines, hx] at heq
    rw [Option.some.inj heq]
  · intro i hi hstale
    rcases Nat.lt_or_ge i (first - 1) with hlt | hge
    · -- no line up to this one has been touched
      refine absurd hstale (not_stale h hc hk i hi ?_)
      rintro j hj ⟨-, first', -, hfirst', -, hle, -⟩
      obtain rfl := Option.some.inj (hfirst.symm.trans hfirst')
      omega
    · exact (hnews.behind i hge (hfrontier ▸ hi)).append before
  · have hcount : (b.closed.sync s).1.lineCount = b.lineCount := congrArg List.length hlines
    exact hcount ▸ hnews.respelled.append hrespell

end

end Buffer

/-- **Closing a transaction tells of what it makes stale**, in every session in which contexts have
been forgotten by passes alone: of the lines that are annotated differently, and of those that no
longer show what is found from scratch. -/
theorem editEnd_reports (s : Session) (hs : s.Undisturbed) (name : String) (b : Buffer)
    (hb : (name, b) ∈ s.buffers) (hone : b.store.depth = 1) (k : Handle)
    (hk : b.handle = some k) :
    ∃ news, b.Reports s.shared k (b.editEnd s.shared) news := by
  have ho := hs.orderly.buffers _ hb
  have hc := hs.current _ hb
  cases hentered : b.entered s.shared .editEnd with
  | none => exact Buffer.reports_unpassed ho hc hk hone hentered
  | some c => exact Buffer.reports_passed ho hc hk c hentered

/-- A session with one buffer that has been highlighted, and whose line has been split in a
transaction that is still open: its second line is yet to be highlighted. -/
def Session.bracesSplit : Session :=
  (start 0 .standard).after
    [.define "braces" (.ok .braces) false, .newBuffer "text" (some "\x7b\x7d") none,
      .useHandle "text" "braces", .buffer "text" (.ensure 0 0), .buffer "text" .editStart,
      .buffer "text" (.wrap 0 1)]

theorem editEnd_reports_bracesSplit :
    ∃ b k news, ("text", b) ∈ Session.bracesSplit.buffers ∧
      b.Reports Session.bracesSplit.shared k (b.editEnd Session.bracesSplit.shared) news ∧
      Told news 1 := by
  have hs : Session.bracesSplit.Undisturbed := .after (.start 0 .standard) _ (by simp)
  obtain ⟨b, hb⟩ : ∃ b, Session.bracesSplit.buffers = [("text", b)] := ⟨_, rfl⟩
  have hall : (Session.bracesSplit.buffers.map fun e => (e.2.store.depth, e.2.handle.isSome,
      e.2.lineList.map (·.highlight.markers.length),
      (e.2.editEnd Session.bracesSplit.shared).buffer.lineList.map (·.highlight.markers.length))) =
      [(1, true, [2, 0], [1, 1])] := by
    decide +kernel
  rw [hb] at hall
  simp only [List.map_cons, List.map_nil, List.cons.injEq, Prod.mk.injEq, and_true] at hall
  obtain ⟨hone, hhandle, hbefore, hafter⟩ := hall
  obtain ⟨k, hk⟩ := Option.isSome_iff_exists.1 hhandle
  have hmem : ("text", b) ∈ Session.bracesSplit.buffers := by simp [hb]
  obtain ⟨news, hnews⟩ := editEnd_reports _ hs "text" b hmem hone k hk
  refine ⟨b, k, news, hmem, hnews, ?_⟩
  obtain ⟨x, hx, hxm⟩ := Option.map_eq_some_iff.1
    (List.getElem?_map.symm.trans (congrArg (·[1]?) hbefore))
  obtain ⟨y, hy, hym⟩ := Option.map_eq_some_iff.1
    (List.getElem?_map.symm.trans (congrArg (·[1]?) hafter))
  refine hnews.changed 1 x y hx hy fun heq => ?_
  rw [heq, hym] at hxm
  cases hxm

end Highlighting

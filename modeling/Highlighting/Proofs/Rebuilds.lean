import Highlighting.Proofs.Provenance
import Mathlib.Data.List.Induction

/-!
# No rebuild is lost

A session is read as a log: who was asked to rebuild, whose lines were highlighted, and who was told
of what.  A buffer that has been asked shows no line as highlighted until it is highlighted again,
and it is told that it was rebuilt when its events are next taken; and it is told so no more often
than it was asked:

    asked, not passed over since  →  highlightedUpTo = 0                   (Accounted.idle)
    asked, no events taken since  →  a rebuild is yet to be told of        (Accounted.due)
    told before + yet to be told  ≤  asked                              (Accounted.untold)

Each step keeps the account (accounted_step), so it holds of every run (accounted_after), and so
each rebuild that is told of has a request of its own that came before   (rebuilds_told).
-/

namespace Highlighting.Session

/-- What happens in a session, as far as rebuilds go. -/
inductive Entry
  /-- The buffers with these slots, all that are open, are asked to rebuild. -/
  | requested (slots : List Nat)
  /-- Lines of the buffer with this slot are highlighted. -/
  | passed (slot : Nat)
  /-- The events of the buffer with this slot are taken: these. -/
  | taken (slot : Nat) (events : List Event)
  deriving Repr, DecidableEq

namespace Entry

/-- The buffers that it is about. -/
def slots : Entry → List Nat
  | requested slots => slots
  | passed slot => [slot]
  | taken slot _ => [slot]

/-- Does it ask the buffer with this slot to rebuild? -/
def asks (slot : Nat) : Entry → Bool
  | requested slots => slots.contains slot
  | _ => false

/-- How many rebuilds it tells the buffer with this slot of. -/
def tells (slot : Nat) : Entry → Nat
  | taken taker events => if taker = slot then events.count .rebuilt else 0
  | _ => 0

/-- Are the events of the buffer with this slot taken? -/
def takes (slot : Nat) : Entry → Bool
  | taken taker _ => taker == slot
  | _ => false

end Entry

/-! ## The log -/

/-- The slots of the buffers that are open. -/
def openSlots (s : Session) : List Nat :=
  s.buffers.map (·.2.slot)

/-- What is noted of the passes of a buffer: a reset that is granted to a pass asks all the buffers
that are open, before any line is highlighted. -/
def passEntries (openSlots : List Nat) (slot : Nat) (calls : List PassCall) : List Entry :=
  calls.flatMap fun c => (if c.resets then [.requested openSlots] else []) ++ [.passed slot]

/-- What is noted of a step. -/
def entries (s : Session) : Op → List Entry
  | .requestRebuild => [.requested s.openSlots]
  | .buffer name op =>
    match s.buffers.lookup name with
    | none => []
    | some b =>
      passEntries s.openSlots b.slot (b.calls s.shared op) ++
        if op = .takeEvents then [.taken b.slot (b.takeEvents s.shared).1] else []
  | _ => []

/-- What is noted while some operations are done. -/
def log (s : Session) : List Op → List Entry
  | [] => []
  | op :: ops => s.entries op ++ (s.step op).2.log ops

/-- How often a log says that the buffer with this slot was asked. -/
def requests (slot : Nat) (log : List Entry) : Nat :=
  log.countP (·.asks slot)

/-- Of how many rebuilds a log says that the buffer with this slot was told. -/
def tellings (slot : Nat) : List Entry → Nat
  | [] => 0
  | e :: log => e.tells slot + tellings slot log

/-- The buffer with this slot has been asked, and nothing that meets the request came since. -/
def Unmet (slot : Nat) (meets : Entry → Prop) (log : List Entry) : Prop :=
  ∃ past slots rest, log = past ++ .requested slots :: rest ∧ slot ∈ slots ∧
    ∀ e ∈ rest, ¬meets e

section
variable (slot : Nat) (xs ys : List Entry)

@[simp] theorem requests_append : requests slot (xs ++ ys) = requests slot xs + requests slot ys :=
  List.countP_append

@[simp] theorem tellings_append :
    tellings slot (xs ++ ys) = tellings slot xs + tellings slot ys := by
  induction xs with
  | nil => exact (Nat.zero_add _).symm
  | cons e xs ih => rw [List.cons_append, tellings, tellings, ih, Nat.add_assoc]

theorem log_append (s : Session) (ops ops' : List Op) :
    s.log (ops ++ ops') = s.log ops ++ (s.after ops).log ops' := by
  induction ops generalizing s with
  | nil => rfl
  | cons op ops ih => simp [log, ih, after]

variable {slot xs ys} {meets : Entry → Prop}

/-- An entry of a log that was continued is one of the continuation or one of the log before. -/
theorem split_append {x : Entry} {past rest : List Entry} (h : xs ++ ys = past ++ x :: rest) :
    (∃ zs, past = xs ++ zs ∧ ys = zs ++ x :: rest) ∨
      ∃ zs, xs = past ++ x :: zs ∧ rest = zs ++ ys := by
  rcases List.append_eq_append_iff.1 h with ⟨zs, rfl, hys⟩ | ⟨zs, rfl, hzs⟩
  · exact .inl ⟨zs, rfl, hys⟩
  · cases zs with
    | nil => exact .inl ⟨[], by simp, hzs.symm⟩
    | cons z zs =>
      obtain ⟨rfl, rfl⟩ := List.cons_eq_cons.1 hzs
      exact .inr ⟨zs, rfl, rfl⟩

/-- A request that is unmet in the end was made lately, or before and not met lately. -/
theorem unmet_append (h : Unmet slot meets (xs ++ ys)) :
    Unmet slot meets ys ∨ Unmet slot meets xs ∧ ∀ e ∈ ys, ¬meets e := by
  obtain ⟨past, slots, rest, heq, hslot, hrest⟩ := h
  rcases split_append heq with ⟨zs, -, hys⟩ | ⟨zs, hxs, rfl⟩
  · exact .inl ⟨zs, slots, rest, hys, hslot, hrest⟩
  · exact .inr ⟨⟨past, slots, zs, hxs, hslot, fun e he => hrest e (List.mem_append_left _ he)⟩,
      fun e he => hrest e (List.mem_append_right _ he)⟩

theorem Unmet.exists_requested (h : Unmet slot meets xs) :
    ∃ slots, .requested slots ∈ xs ∧ slot ∈ slots := by
  obtain ⟨past, slots, rest, rfl, hslot, -⟩ := h
  exact ⟨slots, by simp, hslot⟩

end

/-! ## What is noted of a step -/

section
variable (openSlots : List Nat) (slot : Nat) (calls : List PassCall)

theorem passEntries_cons (c : PassCall) :
    passEntries openSlots slot (c :: calls) =
      ((if c.resets then [.requested openSlots] else []) ++ [.passed slot]) ++
        passEntries openSlots slot calls :=
  rfl

theorem requests_passEntries (asked : Nat) (hasked : asked ∈ openSlots) :
    requests asked (passEntries openSlots slot calls) = calls.countP (·.resets) := by
  induction calls with
  | nil => rfl
  | cons c calls ih =>
    rw [passEntries_cons, requests_append, ih, List.countP_cons, Nat.add_comm]
    cases c.resets <;> simp [requests, Entry.asks, hasked]

theorem mem_passEntries (e : Entry) (he : e ∈ passEntries openSlots slot calls) :
    e = .passed slot ∨ e = .requested openSlots ∧ calls.any (·.resets) = true := by
  obtain ⟨c, hc, he⟩ := List.mem_flatMap.1 he
  rcases List.mem_append.1 he with he | he
  · split at he
    · next hr => exact .inr ⟨List.mem_singleton.1 he, List.any_eq_true.2 ⟨c, hc, hr⟩⟩
    · cases he
  · exact .inl (List.mem_singleton.1 he)

theorem passed_mem_passEntries (h : calls ≠ []) :
    .passed slot ∈ passEntries openSlots slot calls := by
  obtain ⟨c, hc⟩ := List.exists_mem_of_ne_nil _ h
  exact List.mem_flatMap.2 ⟨c, hc, by simp⟩

/-- Each request of a pass is met by the pass. -/
theorem met_passEntries : ¬Unmet slot (· = .passed slot) (passEntries openSlots slot calls) := by
  induction calls with
  | nil =>
    intro h
    obtain ⟨slots, hmem, -⟩ := h.exists_requested
    cases hmem
  | cons c calls ih =>
    intro h
    rcases unmet_append h with h | ⟨h, -⟩
    · exact ih h
    · rcases unmet_append h with h | ⟨-, h⟩
      · obtain ⟨slots, hmem, -⟩ := h.exists_requested
        simp at hmem
      · exact h _ (.head _) rfl

end

section
variable {s : Session} {op : Op}

theorem entries_aside (s : Session) (hop : op.aside = true) : s.entries op = [] := by
  cases op <;> first | rfl | cases hop

theorem entries_buffer {name : String} {b : Buffer} (hb : s.buffers.lookup name = some b)
    (bop : BufferOp) : s.entries (.buffer name bop) =
      passEntries s.openSlots b.slot (b.calls s.shared bop) ++
        if bop = .takeEvents then [.taken b.slot (b.takeEvents s.shared).1] else [] := by
  simp only [entries, hb]

/-- What is noted of a step: a request to the buffers that are open, if the step asks for rebuilds;
what passes over the buffer that is used, or that its events are taken. -/
theorem mem_entries (e : Entry) (he : e ∈ s.entries op) :
    e = .requested s.openSlots ∧ s.asksRebuild op = true ∨
    ∃ name bop b, op = .buffer name bop ∧ s.buffers.lookup name = some b ∧
      (e = .passed b.slot ∨ e = .taken b.slot (b.takeEvents s.shared).1 ∧ bop = .takeEvents) := by
  cases op with
  | requestRebuild => exact .inl ⟨List.mem_singleton.1 he, rfl⟩
  | buffer name bop =>
    cases hb : s.buffers.lookup name with
    | none =>
      simp only [entries, hb] at he
      cases he
    | some b =>
      rw [entries_buffer hb] at he
      rcases List.mem_append.1 he with he | he
      · rcases mem_passEntries _ _ _ e he with rfl | ⟨rfl, hasks⟩
        · exact .inr ⟨name, bop, b, rfl, hb, .inl rfl⟩
        · exact .inl ⟨rfl, by simp only [asksRebuild, hb, Option.any_some, hasks]⟩
      · split at he
        · next htake =>
          exact .inr ⟨name, bop, b, rfl, hb, .inr ⟨List.mem_singleton.1 he, htake⟩⟩
        · cases he
  | _ => cases he

/-- A step that asks for rebuilds asks every buffer that is open. -/
theorem requests_pos (slot : Nat) (hslot : slot ∈ s.openSlots) (hasks : s.asksRebuild op = true) :
    0 < requests slot (s.entries op) := by
  cases op with
  | requestRebuild => simp [entries, requests, Entry.asks, hslot]
  | buffer name bop =>
    obtain ⟨b, hb, hany⟩ := (Option.any_eq_true _ _).1 hasks
    rw [entries_buffer hb, requests_append, requests_passEntries _ _ _ _ hslot]
    have hpos : 0 < (b.calls s.shared bop).countP (·.resets) :=
      List.countP_pos_iff.2 (by simpa using hany)
    omega
  | _ => cases hasks

end

/-! ## The account of one buffer -/

/-- The log accounts for the rebuilds of a buffer. -/
structure Accounts (b : Buffer) (s : Shared) (log : List Entry) : Prop where
  /-- It has been told of no more rebuilds, the one that is pending included, than were asked. -/
  untold : tellings b.slot log + b.untold s ≤ requests b.slot log
  idle : Unmet b.slot (· = .passed b.slot) log → b.highlightedUpTo s = 0
  due : Unmet b.slot (·.takes b.slot = true) log → 0 < b.untold s

section
variable {b b' : Buffer} {s : Session} {s' : Shared} {log : List Entry} {op : Op}

theorem tellings_eq_zero (slot : Nat) (log : List Entry) (h : ∀ e ∈ log, e.takes slot = false) :
    tellings slot log = 0 := by
  induction log with
  | nil => rfl
  | cons e log ih =>
    have hone : e.tells slot = 0 := by
      have htakes := h e (.head _)
      cases e with
      | taken taker events =>
        have hne : taker ≠ slot := by simpa [Entry.takes] using htakes
        simp [Entry.tells, hne]
      | _ => rfl
    rw [tellings, hone, Nat.zero_add]
    exact ih fun e he => h e (.tail _ he)

/-- A buffer that takes no part in a step: it may be asked, and that is all. -/
theorem accounts_stayed (ha : Accounts b s.shared log) (hslot : b.slot ∈ s.openSlots)
    (htakes : ∀ e ∈ s.entries op, e.takes b.slot = false)
    (hpending : s'.pending b.slot = (s.shared.pending b.slot || s.asksRebuild op)) :
    Accounts b s' (log ++ s.entries op) := by
  have hasks : ∀ {meets}, Unmet b.slot meets (s.entries op) → s.asksRebuild op = true := by
    intro meets hunmet
    obtain ⟨slots, hmem, -⟩ := hunmet.exists_requested
    rcases mem_entries _ hmem with ⟨-, hasks⟩ | ⟨-, -, b, -, -, heq | ⟨heq, -⟩⟩
    · exact hasks
    · cases heq
    · cases heq
  have hmore : s.shared.pending b.slot = true → s'.pending b.slot = true := by
    intro hp
    rw [hpending, hp, Bool.true_or]
  refine ⟨?_, fun hunmet => ?_, fun hunmet => ?_⟩
  · have huntold := ha.untold
    rw [tellings_append, requests_append, tellings_eq_zero _ _ htakes]
    unfold Buffer.untold at huntold ⊢
    rw [hpending]
    cases hasked : s.asksRebuild op with
    | false =>
      rw [Bool.or_false]
      omega
    | true =>
      have hpos := requests_pos b.slot hslot hasked
      rw [Bool.or_true, if_pos rfl]
      omega
  · rcases unmet_append hunmet with hunmet | ⟨hunmet, -⟩
    · rw [Buffer.highlightedUpTo, hpending, hasks hunmet, Bool.or_true, if_pos rfl]
    · have hzero := ha.idle hunmet
      unfold Buffer.highlightedUpTo at hzero ⊢
      split
      · rfl
      · next hp => rwa [if_neg fun hold => hp (hmore hold)] at hzero
  · rcases unmet_append hunmet with hunmet | ⟨hunmet, -⟩
    · rw [Buffer.untold, hpending, hasks hunmet, Bool.or_true, if_pos rfl]
      exact Nat.succ_pos _
    · have hdue := ha.due hunmet
      unfold Buffer.untold at hdue ⊢
      split at hdue
      · next hp => rw [if_pos (hmore hp)]; exact hdue
      · omega

/-- The buffer that is used, by an operation that takes no events. -/
theorem accounts_used (ha : Accounts b s.shared log) (hslot : b.slot ∈ s.openSlots)
    {calls : List PassCall} (hanswers : b.Answers s.shared calls b' s') :
    Accounts b' s' (log ++ passEntries s.openSlots b.slot calls) := by
  have htakes : ∀ e ∈ passEntries s.openSlots b.slot calls, e.takes b.slot = false := by
    intro e he
    rcases mem_passEntries _ _ _ e he with rfl | ⟨rfl, -⟩ <;> rfl
  refine ⟨?_, ?_, ?_⟩ <;> rw [hanswers.slot]
  · have huntold := ha.untold
    rw [tellings_append, requests_append, tellings_eq_zero _ _ htakes,
      requests_passEntries _ _ _ _ hslot, hanswers.untold]
    omega
  · intro hunmet
    rcases unmet_append hunmet with hunmet | ⟨hunmet, hnone⟩
    · exact absurd hunmet (met_passEntries _ _ _)
    · refine hanswers.idle ?_ (ha.idle hunmet)
      by_contra hcalls
      exact hnone _ (passed_mem_passEntries _ _ _ hcalls) rfl
  · intro hunmet
    rw [hanswers.untold]
    rcases unmet_append hunmet with hunmet | ⟨hunmet, -⟩
    · obtain ⟨slots, hmem, -⟩ := hunmet.exists_requested
      rcases mem_passEntries _ _ _ _ hmem with heq | ⟨-, hany⟩
      · cases heq
      · have hpos : 0 < calls.countP (·.resets) := List.countP_pos_iff.2 (by simpa using hany)
        omega
    · have := ha.due hunmet
      omega

/-- The buffer whose events are taken. -/
theorem accounts_taken (ha : Accounts b s.shared log) :
    Accounts (b.takeEvents s.shared).2.1 (b.takeEvents s.shared).2.2
      (log ++ [.taken b.slot (b.takeEvents s.shared).1]) := by
  obtain ⟨htold, hanswers, huntold⟩ := b.answers_takeEvents s.shared
  have hslot : (b.takeEvents s.shared).2.1.slot = b.slot := hanswers.slot
  refine ⟨?_, ?_, ?_⟩ <;> rw [hslot]
  · have htelling : tellings b.slot [.taken b.slot (b.takeEvents s.shared).1] =
        b.untold s.shared := by
      simp [tellings, Entry.tells, htold]
    have hnone : requests b.slot [.taken b.slot (b.takeEvents s.shared).1] = 0 := rfl
    have hbefore := ha.untold
    rw [tellings_append, requests_append, htelling, hnone, huntold]
    omega
  · intro hunmet
    rcases unmet_append hunmet with hunmet | ⟨hunmet, -⟩
    · obtain ⟨slots, hmem, -⟩ := hunmet.exists_requested
      cases List.mem_singleton.1 hmem
    · exact hanswers.idle rfl (ha.idle hunmet)
  · intro hunmet
    rcases unmet_append hunmet with hunmet | ⟨-, hnone⟩
    · obtain ⟨slots, hmem, -⟩ := hunmet.exists_requested
      cases List.mem_singleton.1 hmem
    · exact absurd (hnone _ (.head _)) (by simp [Entry.takes])

end

/-! ## The account of a session -/

/-- The log accounts for the rebuilds of every buffer. -/
structure Accounted (s : Session) (log : List Entry) : Prop where
  /-- It is about no buffer that is yet to be opened. -/
  below : ∀ e ∈ log, ∀ slot ∈ e.slots, slot < s.shared.nextSlot
  /-- Whenever events were taken, the rebuilds told of had been asked for. -/
  told : ∀ past slot events rest, log = past ++ .taken slot events :: rest →
    tellings slot past + events.count .rebuilt ≤ requests slot past
  buffers : ∀ e ∈ s.buffers, Accounts e.2 s.shared log

theorem accounted_start (resetDelay : Nat) (settings : Settings) (sums : Sums) :
    Accounted (start resetDelay settings sums) [] where
  below e he := by cases he
  told past slot events rest h := by cases past <;> cases h
  buffers e he := by cases he

section
variable {s : Session} (h : s.Orderly) {log : List Entry} (ha : Accounted s log) (op : Op)

theorem mem_openSlots {e : String × Buffer} (he : e ∈ s.buffers) : e.2.slot ∈ s.openSlots :=
  List.mem_map_of_mem he

include h in
theorem openSlots_lt (slot : Nat) (hslot : slot ∈ s.openSlots) : slot < s.shared.nextSlot := by
  obtain ⟨e, he, rfl⟩ := List.mem_map.1 hslot
  exact h.numbered _ (h.buffers e he).registered

/-- What is noted of a step is about buffers that are open. -/
theorem slots_entries (e : Entry) (he : e ∈ s.entries op) (slot : Nat) (hslot : slot ∈ e.slots) :
    slot ∈ s.openSlots := by
  rcases mem_entries e he with ⟨rfl, -⟩ | ⟨name, bop, b, -, hb, rfl | ⟨rfl, -⟩⟩
  · exact hslot
  · obtain rfl := List.mem_singleton.1 hslot
    exact mem_openSlots (mem_of_lookup hb)
  · obtain rfl := List.mem_singleton.1 hslot
    exact mem_openSlots (mem_of_lookup hb)

include ha in
theorem told_step (past : List Entry) (slot : Nat) (events : List Event) (rest : List Entry)
    (heq : log ++ s.entries op = past ++ .taken slot events :: rest) :
    tellings slot past + events.count .rebuilt ≤ requests slot past := by
  rcases split_append heq with ⟨zs, rfl, hentries⟩ | ⟨zs, hlog, -⟩
  · have hmem : .taken slot events ∈ s.entries op := by simp [hentries]
    rcases mem_entries _ hmem with ⟨hnone, -⟩ | ⟨name, bop, b, rfl, hb, hnone | ⟨htaken, rfl⟩⟩
    · cases hnone
    · cases hnone
    · -- taking events enters no pass, so that nothing is noted before
      rw [entries_buffer hb] at hentries
      have hzs : zs = [] := by
        cases zs with
        | nil => rfl
        | cons z zs => cases zs <;> cases hentries
      obtain ⟨rfl, rfl⟩ := Entry.taken.inj htaken
      have huntold := (ha.buffers _ (mem_of_lookup hb)).untold
      rw [hzs, List.append_nil, (b.answers_takeEvents s.shared).1]
      exact huntold
  · exact ha.told past slot events zs hlog

include h ha in
theorem accounts_step (e : String × Buffer) (he : e ∈ (s.step op).2.buffers) :
    Accounts e.2 (s.step op).2.shared (log ++ s.entries op) := by
  cases came_step h op he with
  | stayed hold hop hpending =>
    refine accounts_stayed (ha.buffers e hold) (mem_openSlots hold) (fun entry hentry => ?_)
      hpending
    rcases mem_entries entry hentry with ⟨rfl, -⟩ | ⟨name, bop, b, rfl, hb, rfl | ⟨rfl, -⟩⟩
    · rfl
    · rfl
    · have hne : b.slot ≠ e.2.slot := fun heq =>
        hop bop (congrArg (Op.buffer · bop) (h.distinct _ (mem_of_lookup hb) e hold heq))
      simpa [Entry.takes] using hne
  | @used b bop hb hop hbuffer hshared =>
    have hmem := mem_of_lookup hb
    have hopen : b.slot ∈ s.openSlots := mem_openSlots hmem
    subst hop
    rw [hbuffer, hshared, entries_buffer hb]
    by_cases htake : bop = .takeEvents
    · subst htake
      exact accounts_taken (ha.buffers _ hmem)
    · rw [if_neg htake, List.append_nil]
      exact accounts_used (ha.buffers _ hmem) hopen
        (Buffer.answers_runOnBuffer (h.buffers _ hmem) bop htake)
  | @given b k hmem hop hbuffer hshared =>
    rw [hbuffer, hshared, entries_aside s hop]
    exact accounts_used (ha.buffers _ hmem) (mem_openSlots hmem) (b.answers_setHandle s.shared k)
  | opened hop hnew hpending =>
    have hfresh : ∀ entry ∈ log, e.2.slot ∉ entry.slots := fun entry hentry hmem =>
      Nat.lt_irrefl _ (hnew.slot ▸ ha.below entry hentry _ hmem)
    have hnone : ∀ {meets}, ¬Unmet e.2.slot meets log := by
      intro meets hunmet
      obtain ⟨slots, hmem, hin⟩ := hunmet.exists_requested
      exact hfresh _ hmem hin
    have hentries : s.entries op = [] := by
      rw [hop]
      rfl
    rw [hentries, List.append_nil]
    refine ⟨?_, fun hunmet => absurd hunmet hnone, fun hunmet => absurd hunmet hnone⟩
    have htellings : tellings e.2.slot log = 0 := by
      refine tellings_eq_zero _ _ fun entry hentry => ?_
      cases entry with
      | taken taker events =>
        have hne : e.2.slot ≠ taker := by simpa [Entry.slots] using hfresh _ hentry
        simpa [Entry.takes] using hne.symm
      | _ => rfl
    simp [htellings, Buffer.untold, hnew.events, hpending]

include h ha in
theorem accounted_step : Accounted (s.step op).2 (log ++ s.entries op) where
  below e he slot hslot := by
    refine Nat.lt_of_lt_of_le ?_ (nextSlot_le_step h op)
    rcases List.mem_append.1 he with he | he
    · exact ha.below e he slot hslot
    · exact openSlots_lt h slot (slots_entries op e he slot hslot)
  told := told_step ha op
  buffers := accounts_step h ha op

end

/-- The log of any run accounts for all rebuilds. -/
theorem accounted_after (resetDelay : Nat) (settings : Settings) (sums : Sums) (ops : List Op) :
    Accounted ((start resetDelay settings sums).after ops)
      ((start resetDelay settings sums).log ops) := by
  induction ops using List.reverseRecOn with
  | nil => exact accounted_start resetDelay settings sums
  | append_singleton ops op ih =>
    have hstep := accounted_step (reachable_after resetDelay settings ops).orderly ih op
    rw [after_concat, log_append]
    simpa [log] using hstep

/-! ## Rebuilds and their requests -/

section
variable (slot : Nat) (log : List Entry)

/-- Does the event at place `k` of those that are taken by the entry at place `i` tell the buffer
with this slot of a rebuild? -/
def Tells (i k : Nat) : Prop :=
  ∃ events, log[i]? = some (.taken slot events) ∧ events[k]? = some .rebuilt

/-- Does the entry at place `j` ask the buffer with this slot, and others, to rebuild? -/
def Asks (j : Nat) : Prop :=
  ∃ slots, log[j]? = some (.requested slots) ∧ slot ∈ slots

/-- Of how many rebuilds the buffer was told before the event at place `k` of those that are taken
by the entry at place `i`. -/
def toldBefore (i k : Nat) : Nat :=
  tellings slot (log.take i) +
    match log[i]? with
    | some (.taken _ events) => (events.take k).count .rebuilt
    | _ => 0

variable {slot log}

theorem toldBefore_eq {i : Nat} {events : List Event} (h : log[i]? = some (.taken slot events))
    (k : Nat) : toldBefore slot log i k =
      tellings slot (log.take i) + (events.take k).count .rebuilt := by
  rw [toldBefore, h]

/-- Where an event tells of a rebuild, that one counts from the next place on. -/
theorem count_take_lt {events : List Event} {k m : Nat} (hk : events[k]? = some .rebuilt)
    (hlt : k < m) : (events.take k).count .rebuilt < (events.take m).count .rebuilt := by
  have hnext : (events.take (k + 1)).count .rebuilt = (events.take k).count .rebuilt + 1 := by
    simp [List.take_add_one, hk]
  rw [Nat.lt_iff_add_one_le, ← hnext]
  exact (List.take_prefix_take_left hlt).sublist.count_le _

theorem tellings_take_le {i j : Nat} {events : List Event}
    (hi : log[i]? = some (.taken slot events)) (hlt : i < j) :
    tellings slot (log.take i) + events.count .rebuilt ≤ tellings slot (log.take j) := by
  obtain ⟨rest, hrest⟩ := List.take_prefix_take_left (l := log) hlt
  have hone : tellings slot [.taken slot events] = events.count .rebuilt := by
    simp [tellings, Entry.tells]
  have hnext : log.take (i + 1) = log.take i ++ [.taken slot events] := by
    rw [List.take_add_one, hi]
    rfl
  rw [← hrest, tellings_append, hnext, tellings_append, hone]
  exact Nat.le_add_right _ _

/-- The rebuilds that a buffer is told of are told one after the other. -/
theorem toldBefore_lt {i k j m : Nat} (h : Tells slot log i k) (h' : Tells slot log j m)
    (hlt : i < j ∨ i = j ∧ k < m) : toldBefore slot log i k < toldBefore slot log j m := by
  obtain ⟨events, hi, hk⟩ := h
  obtain ⟨events', hj, -⟩ := h'
  rw [toldBefore_eq hi, toldBefore_eq hj]
  rcases hlt with hlt | ⟨rfl, hlt⟩
  · have hcount := count_take_lt hk (List.getElem?_eq_some_iff.1 hk).1
    rw [List.take_length] at hcount
    have := tellings_take_le hi hlt
    omega
  · obtain rfl : events = events' := by simpa using hi.symm.trans hj
    exact Nat.add_lt_add_left (count_take_lt hk hlt) _

theorem toldBefore_inj {i k j m : Nat} (h : Tells slot log i k) (h' : Tells slot log j m)
    (heq : toldBefore slot log i k = toldBefore slot log j m) : i = j ∧ k = m := by
  rcases Nat.lt_trichotomy i j with hlt | rfl | hlt
  · exact absurd heq (Nat.ne_of_lt (toldBefore_lt h h' (.inl hlt)))
  · rcases Nat.lt_trichotomy k m with hlt | rfl | hlt
    · exact absurd heq (Nat.ne_of_lt (toldBefore_lt h h' (.inr ⟨rfl, hlt⟩)))
    · exact ⟨rfl, rfl⟩
    · exact absurd heq (Nat.ne_of_gt (toldBefore_lt h' h (.inr ⟨rfl, hlt⟩)))
  · exact absurd heq (Nat.ne_of_gt (toldBefore_lt h' h (.inl hlt)))

/-- Requests are numbered as they come: each number that has been reached is that of one. -/
theorem exists_asks (number : Nat) (h : number < requests slot log) :
    ∃ j < log.length, Asks slot log j ∧ requests slot (log.take j) = number := by
  induction log using List.reverseRecOn with
  | nil => cases h
  | append_singleton log e ih =>
    by_cases hlt : number < requests slot log
    · obtain ⟨j, hj, ⟨slots, hget, hmem⟩, hnumber⟩ := ih hlt
      refine ⟨j, by simp; omega, ⟨slots, ?_, hmem⟩, ?_⟩
      · rw [List.getElem?_append_left hj, hget]
      · rw [List.take_append_of_le_length (Nat.le_of_lt hj), hnumber]
    · cases e with
      | requested slots =>
        have hone : requests slot [.requested slots] = if slot ∈ slots then 1 else 0 := by
          simp [requests, Entry.asks, List.countP_cons]
        rw [requests_append, hone] at h
        split at h
        · next hmem => exact ⟨log.length, by simp, ⟨slots, by simp, hmem⟩, by simp; omega⟩
        · omega
      | _ =>
        rw [requests_append] at h
        exact absurd h hlt

/-- Each rebuild that a buffer is told of has a request of its own, which came before. -/
theorem Accounted.exists_request {s : Session} (h : Accounted s log) {i k : Nat}
    (htells : Tells slot log i k) :
    ∃ j < i, Asks slot log j ∧ requests slot (log.take j) = toldBefore slot log i k := by
  obtain ⟨events, hi, hk⟩ := htells
  obtain ⟨hlen, hget⟩ := List.getElem?_eq_some_iff.1 hi
  have hsplit : log = log.take i ++ .taken slot events :: log.drop (i + 1) := by
    rw [← hget, ← List.drop_eq_getElem_cons, List.take_append_drop]
  have htold := h.told _ slot events _ hsplit
  have hcount := count_take_lt hk (List.getElem?_eq_some_iff.1 hk).1
  rw [List.take_length] at hcount
  have hlt : toldBefore slot log i k < requests slot (log.take i) := by
    rw [toldBefore_eq hi]
    omega
  obtain ⟨j, hj, ⟨slots, hslots, hmem⟩, hnumber⟩ := exists_asks _ hlt
  have hji : j < i := Nat.lt_of_lt_of_le hj (List.length_take_le i log)
  refine ⟨j, hji, ⟨slots, ?_, hmem⟩, ?_⟩
  · rwa [List.getElem?_take_of_lt hji] at hslots
  · rwa [List.take_take, Nat.min_eq_left (Nat.le_of_lt hji)] at hnumber

/-- The requests can be chosen so that no two rebuilds share one. -/
theorem Accounted.exists_matching {s : Session} (h : Accounted s log) (slot : Nat) :
    ∃ request : Nat → Nat → Nat,
      (∀ i k, Tells slot log i k → request i k < i ∧ Asks slot log (request i k)) ∧
      ∀ i k j m, Tells slot log i k → Tells slot log j m → request i k = request j m →
        i = j ∧ k = m := by
  have hchoice : ∀ i k, ∃ j, Tells slot log i k →
      j < i ∧ Asks slot log j ∧ requests slot (log.take j) = toldBefore slot log i k := by
    intro i k
    by_cases htells : Tells slot log i k
    · obtain ⟨j, hj, hasks, hnumber⟩ := h.exists_request htells
      exact ⟨j, fun _ => ⟨hj, hasks, hnumber⟩⟩
    · exact ⟨0, fun h => absurd h htells⟩
  choose request hrequest using hchoice
  refine ⟨request, fun i k ht => ⟨(hrequest i k ht).1, (hrequest i k ht).2.1⟩, ?_⟩
  intro i k j m ht ht' heq
  have hi := (hrequest i k ht).2.2
  have hj := (hrequest j m ht').2.2
  rw [heq] at hi
  exact toldBefore_inj ht ht' (hi.symm.trans hj)

end

/-- A buffer that was asked, and is still there. -/
theorem Accounts.asked {b : Buffer} {s : Shared} {past rest : List Entry} {slots : List Nat}
    (h : Accounts b s (past ++ .requested slots :: rest)) (hslot : b.slot ∈ slots) :
    (.passed b.slot ∉ rest → b.highlightedUpTo s = 0) ∧
      ((∀ events, .taken b.slot events ∉ rest) → .rebuilt ∈ (b.takeEvents s).1) := by
  refine ⟨fun hnone => h.idle ⟨past, slots, rest, rfl, hslot, fun e he heq => ?_⟩, fun hnone => ?_⟩
  · exact hnone (heq ▸ he)
  · have hdue := h.due ⟨past, slots, rest, rfl, hslot, fun e he htakes => by
      cases e with
      | taken taker events =>
        obtain rfl : taker = b.slot := by simpa [Entry.takes] using htakes
        exact hnone events he
      | _ => cases htakes⟩
    rw [← (b.answers_takeEvents s).1] at hdue
    exact List.count_pos_iff.1 hdue

/-- **No rebuild is lost.**  In every session, whoever asks for a rebuild: each buffer that was open
then shows no line as highlighted until its own next pass, and is told of a rebuild when its events
are next taken; and the rebuilds that a buffer is ever told of have each a request of their own,
made before and while the buffer was open. -/
theorem rebuilds_told (resetDelay : Nat) (settings : Settings) (sums : Sums) (ops : List Op) :
    (∀ past slots rest,
      (start resetDelay settings sums).log ops = past ++ .requested slots :: rest →
      ∀ e ∈ ((start resetDelay settings sums).after ops).buffers, e.2.slot ∈ slots →
        (.passed e.2.slot ∉ rest →
          e.2.highlightedUpTo ((start resetDelay settings sums).after ops).shared = 0) ∧
        ((∀ events, .taken e.2.slot events ∉ rest) →
          .rebuilt ∈ (e.2.takeEvents ((start resetDelay settings sums).after ops).shared).1)) ∧
    ∀ slot, ∃ request : Nat → Nat → Nat,
      (∀ i k, Tells slot ((start resetDelay settings sums).log ops) i k →
        request i k < i ∧ Asks slot ((start resetDelay settings sums).log ops) (request i k)) ∧
      ∀ i k j m, Tells slot ((start resetDelay settings sums).log ops) i k →
        Tells slot ((start resetDelay settings sums).log ops) j m → request i k = request j m →
        i = j ∧ k = m := by
  have h := accounted_after resetDelay settings sums ops
  refine ⟨fun past slots rest hlog e he hslot => ?_, h.exists_matching⟩
  have ha := h.buffers e he
  rw [hlog] at ha
  exact ha.asked hslot

/-- Two buffers with room for one context: the first one is highlighted, and then the second one,
for which the contexts are reset. -/
def neighbours : List Op :=
  [.define "braces" (.ok .braces) false,
    .newBuffer "first" (some "\x7b\x7d") (some ⟨1, 0, 8, 0⟩), .useHandle "first" "braces",
    .buffer "first" (.ensure 0 0),
    .newBuffer "second" (some "\x7b\x7d") (some ⟨1, 0, 8, 0⟩), .useHandle "second" "braces",
    .intern "a", .buffer "second" (.ensure 0 0)]

theorem rebuilds_told_neighbours :
    (∃ b, ("first", b) ∈ ((start 0 .standard).after neighbours).buffers ∧
      b.highlightedUpTo ((start 0 .standard).after neighbours).shared = 0 ∧
      .rebuilt ∈ (b.takeEvents ((start 0 .standard).after neighbours).shared).1) ∧
    ∃ j < 3, Asks 0 ((start 0 .standard).log (neighbours ++ [.buffer "first" .takeEvents])) j := by
  obtain ⟨second, first, hbuffers⟩ : ∃ second first,
      ((start 0 .standard).after neighbours).buffers = [("second", second), ("first", first)] :=
    ⟨_, _, rfl⟩
  have hslots : ((start 0 .standard).after neighbours).buffers.map (·.2.slot) = [1, 0] := by
    decide +kernel
  have hslot : first.slot = 0 := by
    rw [hbuffers] at hslots
    simpa using (List.cons.inj (List.cons.inj hslots).2).1
  have hlog : (start 0 .standard).log neighbours =
      [.passed 0] ++ .requested [1, 0] :: [.passed 1] := by
    decide +kernel
  have hmem : ("first", first) ∈ ((start 0 .standard).after neighbours).buffers := by
    simp [hbuffers]
  obtain ⟨hzero, hdue⟩ := (rebuilds_told 0 .standard .wrapping neighbours).1 _ _ _ hlog _ hmem
    (by simp [hslot])
  have htaken : (start 0 .standard).log (neighbours ++ [.buffer "first" .takeEvents]) =
      [.passed 0, .requested [1, 0], .passed 1, .taken 0 [.definition "Braces", .rebuilt]] := by
    decide +kernel
  obtain ⟨request, hrequest, -⟩ :=
    (rebuilds_told 0 .standard .wrapping (neighbours ++ [.buffer "first" .takeEvents])).2 0
  obtain ⟨hlt, hasks⟩ := hrequest 3 1 ⟨_, by rw [htaken]; rfl, rfl⟩
  exact ⟨⟨first, hmem, hzero (by simp [hslot]), hdue (by simp)⟩, request 3 1, hlt, hasks⟩

end Highlighting.Session

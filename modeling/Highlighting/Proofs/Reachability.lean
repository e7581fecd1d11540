import Highlighting.Proofs.Operations

/-!
# What holds in every session

A session that was started and then used is orderly: no two of its buffers have one slot, and each
of them is orderly.  If contexts have been forgotten by passes alone, each buffer is current as
well.  Both follow from what a single step does:

    s.Orderly  →  (s.step op).2.Orderly                                        (orderly_step)
    s.Orderly  →  each buffer stays, is used, given a definition, opened or closed
                                                                               (buffersStep)
    s.Orderly, op ≠ .reset, every buffer current  →  every buffer current      (keeps_step)
    every reachable session is orderly                                    (Reached.orderly)
    every undisturbed session is current                                  (Reached.current)
-/

namespace Highlighting

/-- Is an operation neither one on a buffer, nor the opening or closing of one, nor a request to
rebuild? -/
def Op.aside : Op → Bool
  | .buffer _ _ => false
  | .newBuffer _ _ _ => false
  | .dropBuffer _ => false
  | .requestRebuild => false
  | _ => true

/-- A buffer that has just been opened, with room for so many contexts at least, in a slot. -/
structure Buffer.Opened (b : Buffer) (maxContexts slot : Nat) : Prop where
  limit : b.limit = max maxContexts 1
  slot : b.slot = slot
  frontier : b.frontier = 0
  events : b.events = []
  closed : b.store.editing = false

namespace Session

/-- The session after some operations. -/
def after (s : Session) (ops : List Op) : Session :=
  ops.foldl (fun s op => (s.step op).2) s

theorem after_concat (s : Session) (ops : List Op) (op : Op) :
    s.after (ops ++ [op]) = ((s.after ops).step op).2 := by
  rw [after, List.foldl_append]
  rfl

/-- The sessions that are reached from the start by operations of a kind. -/
inductive Reached (allowed : Op → Prop) : Session → Prop
  | start (resetDelay : Nat) (settings : Settings) {sums : Sums} :
      Reached allowed (.start resetDelay settings sums)
  | step {s : Session} (op : Op) : Reached allowed s → allowed op → Reached allowed (s.step op).2

/-- Any session that was started and then used. -/
abbrev Reachable (s : Session) : Prop :=
  Reached (fun _ => True) s

/-- A session in which nobody but a pass has asked for a reset. -/
abbrev Undisturbed (s : Session) : Prop :=
  Reached (fun op => op ≠ .reset) s

/-- No two buffers, and no buffer and no name, share a slot, and each buffer is in order. -/
structure Orderly (s : Session) : Prop where
  sound : s.shared.contexts.Sound
  numbered : s.shared.Numbered
  distinct : ∀ e ∈ s.buffers, ∀ f ∈ s.buffers, e.2.slot = f.2.slot → e.1 = f.1
  named : ∀ e ∈ s.slots, e.2 < s.shared.nextSlot
  apart : ∀ e ∈ s.slots, ∀ f ∈ s.buffers, f.2.slot ≠ e.2
  buffers : ∀ e ∈ s.buffers, e.2.Orderly s.shared

/-- Each buffer is current. -/
def Current (s : Session) : Prop :=
  ∀ e ∈ s.buffers, e.2.Current s.shared

/-- What a step may do to an orderly session if it also leaves current buffers current. -/
structure Keeps (s s' : Session) : Prop where
  orderly : s'.Orderly
  nextSlot_le : s.shared.nextSlot ≤ s'.shared.nextSlot
  current : s.Current → s'.Current

theorem Keeps.refl {s : Session} (h : s.Orderly) : s.Keeps s :=
  ⟨h, Nat.le_refl _, id⟩

theorem Keeps.trans {s s' s'' : Session} (h : s.Keeps s') (k : s'.Keeps s'') : s.Keeps s'' :=
  ⟨k.orderly, Nat.le_trans h.nextSlot_le k.nextSlot_le, fun hc => k.current (h.current hc)⟩

/-! ## Entries -/

theorem mem_of_lookup {α : Type} {entries : List (String × α)} {name : String} {a : α}
    (h : entries.lookup name = some a) : (name, a) ∈ entries := by
  obtain ⟨as, bs, hl, -⟩ := List.lookup_eq_some_iff.1 h
  rw [hl]
  simp

theorem mem_without {α : Type} {entries : List (String × α)} {name : String} {e : String × α}
    (h : e ∈ without name entries) : e ∈ entries ∧ e.1 ≠ name := by
  simpa [without] using h

theorem mem_put {α : Type} {entries : List (String × α)} {name : String} {a : α}
    {e : String × α} (h : e ∈ put name a entries) :
    e = (name, a) ∨ e ∈ entries ∧ e.1 ≠ name := by
  rcases List.mem_cons.1 h with rfl | h
  · exact .inl rfl
  · exact .inr (mem_without h)

@[simp] theorem put_put {α : Type} (name : String) (a a' : α) (entries : List (String × α)) :
    put name a (put name a' entries) = put name a entries := by
  simp [put, without]

theorem lookup_put {α : Type} (name : String) (a : α) (entries : List (String × α)) :
    (put name a entries).lookup name = some a := by
  simp [put]

/-- An operation on the buffer of a name goes by what the operation does to that buffer. -/
theorem step_buffer {s : Session} {name : String} {b : Buffer}
    (hb : s.buffers.lookup name = some b) (op : BufferOp) :
    s.step (.buffer name op) = ((runOnBuffer b s.shared op).result.mapError .refused,
      s.store name (runOnBuffer b s.shared op)) := by
  simp only [step, withBuffer, hb]

/-! ## Steps -/

section
variable {s s' : Session} (h : s.Orderly)
include h

/-- The slot of one buffer moves what is shared: the others stay as they are, that one may be
changed, closed or opened. -/
theorem keeps_moves (own : Nat) (name : String) (hm : s.shared.Moves own s'.shared)
    (hbuffers : ∀ e ∈ s'.buffers, (e ∈ s.buffers ∧ e.2.slot ≠ own) ∨
      (e.1 = name ∧ e.2.slot = own ∧ e.2.Orderly s'.shared ∧
        (s.Current → e.2.Current s'.shared)))
    (hslots : ∀ e ∈ s'.slots, e.2 < s'.shared.nextSlot ∧ ∀ f ∈ s'.buffers, f.2.slot ≠ e.2) :
    s.Keeps s' := by
  refine ⟨⟨hm.sound h.sound, hm.numbered h.numbered, ?_,
    fun e he => (hslots e he).1, fun e he => (hslots e he).2, ?_⟩, hm.nextSlot_le, ?_⟩
  · intro e he f hf heq
    rcases hbuffers e he with ⟨heold, heown⟩ | ⟨hename, heown, -⟩ <;>
      rcases hbuffers f hf with ⟨hfold, hfown⟩ | ⟨hfname, hfown, -⟩
    · exact h.distinct e heold f hfold heq
    · exact absurd (heq.trans hfown) heown
    · exact absurd (heq.symm.trans heown) hfown
    · exact hename.trans hfname.symm
  · intro e he
    rcases hbuffers e he with ⟨hold, hown⟩ | ⟨-, -, hnew, -⟩
    · exact (h.buffers e hold).others hm hown
    · exact hnew
  · intro hc e he
    rcases hbuffers e he with ⟨hold, hown⟩ | ⟨-, -, -, hnew⟩
    · exact (hc e hold).others (h.buffers e hold) hm hown
    · exact hnew hc

/-- What is shared moves, and no buffer takes part. -/
theorem keeps_shared (own : Nat) (shared : Shared) (hm : s.shared.Moves own shared)
    (hown : ∀ e ∈ s.buffers, e.2.slot ≠ own) : s.Keeps { s with shared := shared } :=
  keeps_moves h own "" hm (fun e he => .inl ⟨he, hown e he⟩)
    fun e he => ⟨Nat.lt_of_lt_of_le (h.named e he) hm.nextSlot_le, h.apart e he⟩

/-- No slot that is in use is the next one to be given out. -/
theorem slot_ne_nextSlot (e : String × Buffer) (he : e ∈ s.buffers) :
    e.2.slot ≠ s.shared.nextSlot :=
  Nat.ne_of_lt (h.numbered _ (h.buffers e he).registered)

/-- Neither a buffer nor what is shared changes. -/
theorem keeps_aside (hshared : s'.shared = s.shared) (hslots : s'.slots = s.slots)
    (hbuffers : s'.buffers = s.buffers) : s.Keeps s' := by
  refine keeps_moves h s.shared.nextSlot "" (hshared ▸ .refl _ _)
    (fun e he => .inl ⟨hbuffers ▸ he, slot_ne_nextSlot h e (hbuffers ▸ he)⟩) ?_
  intro e he
  rw [hshared, hbuffers]
  rw [hslots] at he
  exact ⟨h.named e he, h.apart e he⟩

/-- An operation of the buffer of a name. -/
theorem keeps_store {name : String} {b : Buffer} (hb : s.buffers.lookup name = some b)
    (b' : Buffer) (shared : Shared) (hk : b.Keeps s.shared b' shared) :
    s.Keeps { s with shared := shared, buffers := put name b' s.buffers } := by
  have hmem := mem_of_lookup hb
  refine keeps_moves h b.slot name hk.shared ?_ fun e he =>
    ⟨Nat.lt_of_lt_of_le (h.named e he) hk.shared.nextSlot_le, ?_⟩
  · intro e he
    rcases mem_put he with rfl | ⟨hold, hne⟩
    · exact .inr ⟨rfl, hk.slot, hk.orderly, fun hc => hk.current (hc _ hmem)⟩
    · exact .inl ⟨hold, fun heq => hne (h.distinct e hold _ hmem heq)⟩
  · intro f hf
    rcases mem_put hf with rfl | ⟨hold, -⟩
    · exact hk.slot ▸ h.apart e he _ hmem
    · exact h.apart e he f hold

theorem keeps_closeBuffer (name : String) : s.Keeps (s.closeBuffer name) := by
  unfold closeBuffer
  split
  · exact .refl h
  · next b hb =>
    have hmem := mem_of_lookup hb
    refine keeps_moves h b.slot "" (.release _ _) ?_ fun e he =>
      ⟨h.named e he, fun f hf => h.apart e he f (mem_without hf).1⟩
    intro e he
    obtain ⟨hold, hne⟩ := mem_without he
    exact .inl ⟨hold, fun heq => hne (h.distinct e hold _ hmem heq)⟩

theorem keeps_closeSlot (name : String) : s.Keeps (s.closeSlot name) := by
  unfold closeSlot
  split
  · exact .refl h
  · next slot hslot =>
    refine keeps_moves h slot "" (.release _ _)
      (fun e he => .inl ⟨he, h.apart _ (mem_of_lookup hslot) e he⟩) fun e he =>
      ⟨h.named e (mem_without he).1, h.apart e (mem_without he).1⟩

theorem keeps_register (name : String) :
    s.Keeps { s with
      shared := s.shared.register.2
      slots := put name s.shared.register.1 s.slots } := by
  refine keeps_moves h s.shared.nextSlot "" (.register _ _)
    (fun e he => .inl ⟨he, slot_ne_nextSlot h e he⟩) ?_
  intro e he
  rcases mem_put he with rfl | ⟨hold, -⟩
  · exact ⟨Nat.lt_succ_self _, fun f hf => slot_ne_nextSlot h f hf⟩
  · exact ⟨Nat.lt_succ_of_lt (h.named e hold), h.apart e hold⟩

/-- A buffer is opened: it is empty, has a slot of its own and is highlighted nowhere. -/
theorem keeps_open (name : String) (b : Buffer) (hslot : b.slot = s.shared.nextSlot)
    (hb : b.Orderly s.shared.register.2) (hzero : b.frontier = 0) :
    s.Keeps { s with shared := s.shared.register.2, buffers := put name b s.buffers } := by
  refine keeps_moves h s.shared.nextSlot name (.register _ _) ?_ fun e he =>
    ⟨Nat.lt_succ_of_lt (h.named e he), ?_⟩
  · intro e he
    rcases mem_put he with rfl | ⟨hold, -⟩
    · exact .inr ⟨rfl, hslot, hb, fun _ _ _ _ i hi => absurd hi (by simp [hzero])⟩
    · exact .inl ⟨hold, slot_ne_nextSlot h e hold⟩
  · intro f hf
    rcases mem_put hf with rfl | ⟨hold, -⟩
    · exact fun heq => Nat.ne_of_gt (h.named e he) (hslot.symm.trans heq)
    · exact h.apart e he f hold

theorem keeps_newBuffer (name : String) (text : Option String) (settings : Option Settings) :
    s.Keeps (s.step (.newBuffer name text settings)).2 := by
  have hclose := keeps_closeBuffer h name
  refine hclose.trans ?_
  have hempty := Buffer.orderly_create (settings.getD (s.closeBuffer name).settings).maxContexts
    (settings.getD (s.closeBuffer name).settings).tabWidth
    (settings.getD (s.closeBuffer name).settings).lookahead _ hclose.orderly.sound
  simp only [step]
  cases text with
  | none => exact keeps_open hclose.orderly name _ rfl hempty rfl
  | some t => exact keeps_open hclose.orderly name _ rfl (Buffer.keeps_setText hempty t).orderly rfl

theorem keeps_keep (name : Option String) (k : Handle) : s.Keeps (s.keep name k) := by
  cases name <;> exact keeps_aside h rfl rfl rfl

theorem keeps_useHandle (name : String) (k : Handle) : s.Keeps (s.useHandle name k).2 := by
  unfold useHandle withBuffer
  split
  · exact .refl h
  · next b hb =>
    exact keeps_store h hb _ _ (Buffer.keeps_setHandle (h.buffers _ (mem_of_lookup hb)) k)

/-- A slot is in no buffer's use when it is the next to be given out. -/
theorem keeps_unused (shared : Shared) (hm : s.shared.Moves s.shared.nextSlot shared) :
    s.Keeps { s with shared := shared } :=
  keeps_shared h _ shared hm (slot_ne_nextSlot h)

theorem keeps_step (op : Op) (hop : op ≠ .reset) : s.Keeps (s.step op).2 := by
  cases op with
  | define name language observer =>
    cases language with
    | error e => exact .refl h
    | ok l => exact keeps_aside h rfl rfl rfl
  | dropHandle name => exact keeps_aside h rfl rfl rfl
  | seen name =>
    simp only [step]
    split
    · exact .refl h
    · exact keeps_unused h _ (.extend id (.refl _) rfl rfl rfl)
  | sameHandle first second =>
    simp only [step]
    split <;> exact .refl h
  | addLanguage language =>
    cases language with
    | error e => exact .refl h
    | ok l => exact keeps_aside h rfl rfl rfl
  | loadSource source =>
    simp only [step]
    split
    · exact .refl h
    · exact keeps_aside h rfl rfl rfl
  | get name keepAs =>
    simp only [step]
    split
    · exact .refl h
    · exact keeps_keep h _ _
  | plain keepAs => exact keeps_keep h _ _
  | forPath path keepAs => exact keeps_keep h _ _
  | detect path => exact .refl h
  | names => exact .refl h
  | useCount name => exact .refl h
  | intern source =>
    exact keeps_unused h _ (.extend (fun ht => ht.intern source)
      (s.shared.contexts.intern_extends source) rfl rfl rfl)
  | resolve id => exact .refl h
  | contextCount => exact .refl h
  | wait pauses => exact keeps_unused h _ (.extend id (.refl _) rfl rfl rfl)
  | reset => exact absurd rfl hop
  | suppress on => exact keeps_unused h _ (.extend id (.refl _) rfl rfl rfl)
  | suppressed => exact .refl h
  | requestRebuild => exact keeps_unused h _ (.requestRebuild (Nat.le_refl _) id rfl rfl rfl)
  | openSlots => exact .refl h
  | register name =>
    have hclose := keeps_closeSlot h name
    exact hclose.trans (keeps_register hclose.orderly name)
  | dropSlot name => exact keeps_closeSlot h name
  | pending name =>
    simp only [step]
    split <;> exact .refl h
  | takeRebuild name =>
    simp only [step]
    split
    · exact .refl h
    · next slot hslot =>
      exact keeps_shared h slot _ (.takeRebuild slot _) fun e he =>
        h.apart _ (mem_of_lookup hslot) e he
  | newBuffer name text settings => exact keeps_newBuffer h name text settings
  | dropBuffer name => exact keeps_closeBuffer h name
  | useHandle name handle =>
    simp only [step]
    split
    · exact .refl h
    · exact keeps_useHandle h name _
  | useNamed name language =>
    simp only [step]
    split
    · exact .refl h
    · exact keeps_useHandle h name _
  | buffer name op =>
    simp only [step, withBuffer]
    split
    · exact .refl h
    · next b hb =>
      exact keeps_store h hb _ _ (Buffer.keeps_runOnBuffer (h.buffers _ (mem_of_lookup hb)) op)

/-- Even a reset that nobody prepared for leaves everything in order. -/
theorem orderly_reset : (s.step .reset).2.Orderly := by
  have hc : s.shared.reset.2.contexts.Sound ∧
      s.shared.contexts.nextId ≤ s.shared.reset.2.contexts.nextId := by
    rcases s.shared.reset_cases with ⟨since, pauses, -, hr⟩ | ⟨since, pauses, hr⟩ <;> rw [hr]
    · exact ⟨.emptied _, Nat.le_refl _⟩
    · exact ⟨h.sound, Nat.le_refl _⟩
  have hreg : s.shared.reset.2.registered = s.shared.registered := by
    rw [Shared.registered, s.shared.slots_reset]
    rfl
  refine ⟨hc.1, ?_, h.distinct, ?_, h.apart, ?_⟩
  · intro slot hslot
    exact Nat.lt_of_lt_of_eq (h.numbered slot (hreg ▸ hslot)) s.shared.nextSlot_reset.symm
  · intro e he
    exact Nat.lt_of_lt_of_eq (h.named e he) s.shared.nextSlot_reset.symm
  · intro e he
    have hb := h.buffers e he
    exact hb.elsewhere (hreg.symm ▸ hb.registered) hc.1 hc.2

theorem orderly_step (op : Op) : (s.step op).2.Orderly := by
  by_cases hop : op = .reset
  · exact hop ▸ orderly_reset h
  · exact (keeps_step h op hop).orderly

theorem nextSlot_le_step (op : Op) : s.shared.nextSlot ≤ (s.step op).2.shared.nextSlot := by
  by_cases hop : op = .reset
  · exact hop ▸ Nat.le_of_eq s.shared.nextSlot_reset.symm
  · exact (keeps_step h op hop).nextSlot_le

end

/-! ## The buffers after a step -/

@[simp] theorem settings_closeBuffer (s : Session) (name : String) :
    (s.closeBuffer name).settings = s.settings := by
  unfold closeBuffer
  split <;> rfl

theorem nextSlot_closeBuffer (s : Session) (name : String) :
    (s.closeBuffer name).shared.nextSlot = s.shared.nextSlot := by
  unfold closeBuffer
  split <;> rfl

theorem mem_closeBuffer {s : Session} {name : String} {e : String × Buffer}
    (h : e ∈ (s.closeBuffer name).buffers) : e ∈ s.buffers := by
  unfold closeBuffer at h
  split at h
  · exact h
  · exact (mem_without h).1

theorem closeSlot_same (s : Session) (name : String) :
    (s.closeSlot name).settings = s.settings ∧ (s.closeSlot name).buffers = s.buffers := by
  unfold closeSlot
  split <;> exact ⟨rfl, rfl⟩

/-- What a step does to the buffers: nothing, apart from asking them to rebuild; or the buffer of a
name is used, given a definition, opened or closed. -/
inductive BuffersStep (s : Session) : Op → Session → Prop
  | aside {op : Op} {s' : Session} : op.aside = true → s'.buffers = s.buffers →
      (∀ e ∈ s.buffers, s'.shared.pending e.2.slot = s.shared.pending e.2.slot) →
      BuffersStep s op s'
  | asked : BuffersStep s .requestRebuild { s with shared := s.shared.requestRebuild }
  | missing {name : String} (op : BufferOp) : s.buffers.lookup name = none →
      BuffersStep s (.buffer name op) s
  | used {name : String} {b : Buffer} (op : BufferOp) : s.buffers.lookup name = some b →
      BuffersStep s (.buffer name op) (s.store name (runOnBuffer b s.shared op))
  | given {op : Op} {name : String} {b : Buffer} (h : Handle) : op.aside = true →
      s.buffers.lookup name = some b →
      BuffersStep s op { s with buffers := put name (b.setHandle h) s.buffers }
  | opened {name : String} {text : Option String} {settings : Option Settings} {s' : Session}
      {b : Buffer} : b.Opened (settings.getD s.settings).maxContexts s.shared.nextSlot →
      s'.buffers = put name b (s.closeBuffer name).buffers →
      (∀ slot, s'.shared.pending slot = (s.closeBuffer name).shared.pending slot) →
      BuffersStep s (.newBuffer name text settings) s'
  | closed (name : String) : BuffersStep s (.dropBuffer name) (s.closeBuffer name)

theorem buffersStep_useHandle (s : Session) {op : Op} (hop : op.aside = true) (name : String)
    (h : Handle) : BuffersStep s op (s.useHandle name h).2 := by
  unfold useHandle withBuffer
  split
  · exact .aside hop rfl fun _ _ => rfl
  · next hb => exact .given h hop hb

theorem buffersStep_keep (s : Session) {op : Op} (hop : op.aside = true) (name : Option String)
    (h : Handle) : BuffersStep s op (s.keep name h) := by
  cases name <;> exact .aside hop rfl fun _ _ => rfl

theorem pending_closeSlot {s : Session} (h : s.Orderly) (name : String) (e : String × Buffer)
    (he : e ∈ s.buffers) :
    (s.closeSlot name).shared.pending e.2.slot = s.shared.pending e.2.slot := by
  unfold closeSlot
  split
  · rfl
  · next slot hslot =>
    exact s.shared.pending_release_of_ne slot e.2.slot (h.apart _ (mem_of_lookup hslot) e he)

theorem buffersStep {s : Session} (h : s.Orderly) (op : Op) :
    BuffersStep s op (s.step op).2 := by
  cases op with
  | buffer name op =>
    simp only [step, withBuffer]
    split
    · next hb => exact .missing op hb
    · next hb => exact .used op hb
  | newBuffer name text settings =>
    have hnext := s.nextSlot_closeBuffer name
    have huse : settings.getD (s.closeBuffer name).settings = settings.getD s.settings := by
      rw [settings_closeBuffer]
    refine .opened ?_ rfl (Shared.pending_register _)
    rw [← hnext, ← huse]
    cases text <;> exact ⟨rfl, rfl, rfl, rfl, rfl⟩
  | dropBuffer name => exact .closed name
  | requestRebuild => exact .asked
  | useHandle name handle =>
    simp only [step]
    split
    · exact .aside rfl rfl fun _ _ => rfl
    · exact buffersStep_useHandle s rfl name _
  | useNamed name language =>
    simp only [step]
    split
    · exact .aside rfl rfl fun _ _ => rfl
    · exact buffersStep_useHandle s rfl name _
  | get name keepAs =>
    simp only [step]
    split
    · exact .aside rfl rfl fun _ _ => rfl
    · exact buffersStep_keep s rfl _ _
  | plain keepAs => exact buffersStep_keep s rfl _ _
  | forPath path keepAs => exact buffersStep_keep s rfl _ _
  | register name =>
    exact .aside rfl (closeSlot_same s name).2 fun e he =>
      (Shared.pending_register _ _).trans (pending_closeSlot h name e he)
  | dropSlot name => exact .aside rfl (closeSlot_same s name).2 (pending_closeSlot h name)
  | takeRebuild name =>
    simp only [step]
    split
    · exact .aside rfl rfl fun _ _ => rfl
    · next slot hslot =>
      exact .aside rfl rfl fun e he =>
        s.shared.pending_takeRebuild_of_ne slot _ (h.apart _ (mem_of_lookup hslot) e he)
  | reset =>
    refine .aside rfl rfl fun e _ => ?_
    show s.shared.reset.2.pending _ = _
    rw [Shared.pending, s.shared.slots_reset]
    rfl
  | _ =>
    simp only [step]
    (repeat' split) <;> exact .aside rfl rfl fun _ _ => rfl

@[simp] theorem settings_step (s : Session) (op : Op) : (s.step op).2.settings = s.settings := by
  cases op with
  | get name keepAs =>
    simp only [step]
    split
    · rfl
    · cases keepAs <;> rfl
  | plain keepAs => cases keepAs <;> rfl
  | forPath path keepAs => cases keepAs <;> rfl
  | register name => exact (closeSlot_same s name).1
  | dropSlot name => exact (closeSlot_same s name).1
  | newBuffer name text settings => exact settings_closeBuffer s name
  | dropBuffer name => exact settings_closeBuffer s name
  | define name language observer => cases language <;> rfl
  | addLanguage language => cases language <;> rfl
  | seen _ | sameHandle _ _ | loadSource _ | pending _ | takeRebuild _ | useHandle _ _
  | useNamed _ _ | buffer _ _ =>
    simp only [step, Session.useHandle, withBuffer]
    (repeat' split) <;> rfl
  | _ => rfl

/-! ## Reachable sessions -/

theorem Reached.after {allowed : Op → Prop} {s : Session} (h : s.Reached allowed) (ops : List Op)
    (hops : ∀ op ∈ ops, allowed op) : (s.after ops).Reached allowed := by
  induction ops generalizing s with
  | nil => exact h
  | cons op ops ih =>
    exact ih (h.step op (hops op (.head _))) fun op' hop' => hops op' (.tail _ hop')

theorem reachable_after (resetDelay : Nat) (settings : Settings) {sums : Sums} (ops : List Op) :
    ((start resetDelay settings sums).after ops).Reachable :=
  .after (.start resetDelay settings) ops fun _ _ => trivial

theorem orderly_start (resetDelay : Nat) (settings : Settings) (sums : Sums) :
    (start resetDelay settings sums).Orderly where
  sound := Contexts.sound_fresh
  numbered _ hslot := by cases hslot
  distinct _ he := by cases he
  named _ he := by cases he
  apart _ he := by cases he
  buffers _ he := by cases he

theorem Reached.orderly {allowed : Op → Prop} {s : Session} (h : s.Reached allowed) :
    s.Orderly := by
  induction h with
  | start resetDelay settings => exact orderly_start resetDelay settings _
  | step op _ _ ih => exact orderly_step ih op

theorem Reached.current {s : Session} (h : s.Undisturbed) : s.Current := by
  induction h with
  | start resetDelay settings =>
    intro e he
    cases he
  | step op hs hop ih => exact (keeps_step hs.orderly op hop).current ih

end Session

end Highlighting

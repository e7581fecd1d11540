import Highlighting.Buffer.Edit
import Highlighting.Proofs.Edits
import Highlighting.Proofs.Passes
import Mathlib.Algebra.Group.Nat.Defs

/-!
# What the operations of a buffer keep

A buffer is `Orderly` when its parts fit together; every operation keeps that.  It is `Current`
when each line before the frontier is linked, or may have lost its annotations in the open
transaction; every operation keeps that of an orderly buffer, and so do the operations of the
other buffers.  Only emptying the table behind the buffers' backs would not.

What an operation of a buffer does is said once, in `Keeps`, which composes:

    b.Keeps s b' s'  and  b'.Keeps s' b'' s''  →  b.Keeps s b'' s''                (Keeps.trans)
    a splice keeps                                                                 (keeps_splice)
    what an edit comes to keeps                                                    (keeps_edited)
    a pass keeps, if it begins no later than any line that is to be scanned        (keeps_pass)
-/

namespace Highlighting.Buffer

/-- The parts of a buffer fit together, and what it shares with the others is in order. -/
structure Orderly (b : Buffer) (s : Shared) : Prop where
  limit_pos : 0 < b.limit
  unhighlighted : b.handle = none → b.frontier = 0
  framed : b.store.Framed
  window : b.store.editing = true → ∀ first, b.store.first = some first →
    first < b.lineCount ∨ b.frontier ≤ b.lineCount
  registered : b.slot ∈ s.registered
  sound : s.contexts.Sound
  issued : ∀ x ∈ b.lineList, s.contexts.Issued x.endState

/-- Before the frontier, unless a rebuild is pending, each line is linked or may have lost its
annotations in the open transaction. -/
def Current (b : Buffer) (s : Shared) : Prop :=
  s.pending b.slot = false → ∀ h, b.handle = some h → ∀ i, i < b.frontier →
    Linked h.language s.contexts b.lineList i ∨ b.store.Touched i

/-- What an operation may do to an orderly buffer and to what it shares. -/
structure Moves (b : Buffer) (s : Shared) (b' : Buffer) (s' : Shared) : Prop where
  slot : b'.slot = b.slot
  limit : ∃ k, b'.limit = b.limit * 2 ^ k
  shared : s.Moves b.slot s'
  orderly : b'.Orderly s'

/-- What an operation may do if it also leaves a current buffer current. -/
structure Keeps (b : Buffer) (s : Shared) (b' : Buffer) (s' : Shared) : Prop extends
    b.Moves s b' s' where
  current : b.Current s → b'.Current s'

namespace Orderly

variable {b : Buffer} {s s' : Shared}

theorem lineCount_pos (h : b.Orderly s) : 0 < b.lineCount :=
  h.framed.lines_pos

/-- The state at the beginning of a line has been issued. -/
theorem issued_before (h : b.Orderly s) (n : Nat) :
    s.contexts.Issued (stateBefore b.lineList n) := by
  cases n with
  | zero => exact s.contexts.issued_normal
  | succ n =>
    show s.contexts.Issued ((b.lineList[n]?.map (·.endState)).getD .normal)
    cases hn : b.lineList[n]? with
    | none => exact s.contexts.issued_normal
    | some x => exact h.issued x (List.mem_of_getElem? hn)

/-- A buffer stays in order as long as its slot is kept and the table stays sound. -/
theorem elsewhere (h : b.Orderly s) (hreg : b.slot ∈ s'.registered) (hsound : s'.contexts.Sound)
    (hnext : s.contexts.nextId ≤ s'.contexts.nextId) : b.Orderly s' :=
  { h with
    registered := hreg
    sound := hsound
    issued := fun x hx => (h.issued x hx).mono hnext }

theorem others {own : Nat} (h : b.Orderly s) (hm : s.Moves own s') (hne : b.slot ≠ own) :
    b.Orderly s' :=
  h.elsewhere (hm.registered b.slot h.registered hne) (hm.sound h.sound) hm.nextId_le

end Orderly

/-- What another buffer does keeps a buffer current. -/
theorem Current.others {b : Buffer} {s s' : Shared} {own : Nat} (hc : b.Current s)
    (ho : b.Orderly s) (hm : s.Moves own s') (hne : b.slot ≠ own) : b.Current s' := by
  intro hp h hh i hi
  rcases hm.others b.slot ho.registered hne with hpending | ⟨hpending, hx⟩
  · rw [hpending] at hp; cases hp
  · rcases hc (hpending ▸ hp) h hh i hi with hlink | ht
    · exact .inl (hlink.extend ho.sound (hm.sound ho.sound) (ho.issued_before i) hx)
    · exact .inr ht

/-- Outside of transactions, a current buffer is linked up to its frontier. -/
theorem Current.linked {b : Buffer} {s : Shared} (hc : b.Current s)
    (hclosed : b.store.editing = false) (hp : s.pending b.slot = false) {k : Handle}
    (hk : b.handle = some k) (i : Nat) (hi : i < b.frontier) :
    Linked k.language s.contexts b.lineList i := by
  rcases hc hp k hk i hi with hlink | htouched
  · exact hlink
  · rw [TextStore.Touched, hclosed] at htouched
    cases htouched.1

theorem Moves.refl {b : Buffer} {s : Shared} (h : b.Orderly s) : b.Moves s b s :=
  ⟨rfl, ⟨0, (Nat.mul_one _).symm⟩, .refl _ _, h⟩

theorem Moves.trans {b b' b'' : Buffer} {s s' s'' : Shared} (h : b.Moves s b' s')
    (k : b'.Moves s' b'' s'') : b.Moves s b'' s'' := by
  obtain ⟨m, hm⟩ := h.limit
  obtain ⟨n, hn⟩ := k.limit
  refine ⟨k.slot.trans h.slot, ⟨m + n, ?_⟩, h.shared.trans (h.slot ▸ k.shared), k.orderly⟩
  rw [hn, hm, Nat.pow_add, Nat.mul_assoc]

theorem Keeps.refl {b : Buffer} {s : Shared} (h : b.Orderly s) : b.Keeps s b s :=
  ⟨.refl h, id⟩

theorem Keeps.trans {b b' b'' : Buffer} {s s' s'' : Shared} (h : b.Keeps s b' s')
    (k : b'.Keeps s' b'' s'') : b.Keeps s b'' s'' :=
  ⟨h.toMoves.trans k.toMoves, fun hc => k.current (h.current hc)⟩

/-- A new buffer is in order, and what it shares stays so. -/
theorem orderly_create (limit tabWidth lookahead : Nat) (s : Shared) (hs : s.contexts.Sound) :
    (create limit tabWidth lookahead s).1.Orderly (create limit tabWidth lookahead s).2 where
  limit_pos := Nat.le_max_right _ _
  unhighlighted _ := rfl
  framed := ⟨Nat.succ_pos 0, fun _ => ⟨rfl, rfl⟩, fun hc => by cases hc⟩
  window he := by cases he
  registered := by simp [create, Shared.registered, Shared.register]
  sound := hs
  issued x hx := by
    obtain rfl := List.mem_singleton.1 hx
    exact Contexts.issued_normal _

/-! ## Operations that leave the lines alone -/

section
variable {b b' : Buffer} {s : Shared} (h : b.Orderly s)
include h

/-- The store stays, and the frontier falls to 0 or stays. -/
theorem keeps_of_store (hstore : b'.store = b.store) (hslot : b'.slot = b.slot)
    (hlimit : b'.limit = b.limit) (hhandle : b'.handle = none → b.handle = none)
    (hfrontier : b'.frontier = 0 ∨ b'.handle = b.handle ∧ b'.frontier = b.frontier) :
    b.Keeps s b' s := by
  have hlines : b'.lineList = b.lineList := by rw [lineList, hstore]; rfl
  have hcount : b'.lineCount = b.lineCount := by rw [lineCount, hstore]; rfl
  refine ⟨⟨hslot, ⟨0, by rw [hlimit]; simp⟩, .refl _ _,
    ⟨hlimit ▸ h.limit_pos, ?_, hstore ▸ h.framed, ?_,
      hslot ▸ h.registered, h.sound, hlines ▸ h.issued⟩⟩, ?_⟩
  · intro hn
    rcases hfrontier with hf | ⟨-, hf⟩
    · exact hf
    · exact hf.trans (h.unhighlighted (hhandle hn))
  · intro he first hf
    rw [hcount]
    rw [hstore] at he hf
    rcases hfrontier with hz | ⟨-, hz⟩
    · exact .inr (hz ▸ Nat.zero_le _)
    · exact hz ▸ h.window he first hf
  · intro hc hp k hk i hi
    rcases hfrontier with hf | ⟨hh, hf⟩
    · omega
    · rw [hlines, hstore]
      exact hc (hslot ▸ hp) k (hh ▸ hk) i (hf ▸ hi)

theorem moves_suppress (on : Bool) : b.Moves s b (s.suppress on) :=
  ⟨rfl, ⟨0, (Nat.mul_one _).symm⟩, .extend id (.refl _) rfl rfl rfl,
    h.elsewhere h.registered h.sound (Nat.le_refl _)⟩

theorem keeps_invalidate : b.Keeps s b.invalidate s :=
  keeps_of_store h rfl rfl rfl id (.inl rfl)

omit h in
/-- A definition that is in use already changes nothing; any other is noted and announced, and the
frontier falls to 0, unless the buffer had none and the new one highlights nothing. -/
theorem setHandle_cases (b : Buffer) (k : Handle) :
    b.setHandle k = b ∨ ∃ frontier mode,
      b.setHandle k = { b with
        handle := some k
        frontier := frontier
        indentation := mode
        events := b.events ++ [.definition k.name] } ∧
      (frontier = 0 ∨ frontier = b.frontier ∧ b.handle = none) := by
  unfold setHandle
  split
  · exact .inl rfl
  · right
    by_cases hstale : (!k.plain || b.handle.isSome) = true
    · simp only [hstale, if_true]
      split <;> exact ⟨_, _, rfl, .inl rfl⟩
    · have hnone : b.handle = none := by
        simp only [Bool.or_eq_true, not_or] at hstale
        simpa using hstale.2
      simp only [hstale]
      split <;> exact ⟨_, _, rfl, .inr ⟨rfl, hnone⟩⟩

theorem keeps_setHandle (k : Handle) : b.Keeps s (b.setHandle k) s := by
  rcases b.setHandle_cases k with he | ⟨frontier, mode, he, hfrontier⟩ <;> rw [he]
  · exact .refl h
  · refine keeps_of_store h rfl rfl rfl (fun hn => by cases hn) (.inl ?_)
    rcases hfrontier with hzero | ⟨hsame, hnone⟩
    · exact hzero
    · exact hsame.trans (h.unhighlighted hnone)

omit h in
@[simp] theorem store_setHandle (b : Buffer) (k : Handle) : (b.setHandle k).store = b.store := by
  rcases b.setHandle_cases k with he | ⟨frontier, mode, he, -⟩ <;> rw [he]

omit h in
@[simp] theorem lookahead_setHandle (b : Buffer) (k : Handle) :
    (b.setHandle k).lookahead = b.lookahead := by
  rcases b.setHandle_cases k with he | ⟨frontier, mode, he, -⟩ <;> rw [he]

omit h in
@[simp] theorem texts_setHandle (b : Buffer) (k : Handle) : (b.setHandle k).texts = b.texts := by
  rw [texts, lineList, store_setHandle]
  rfl

omit h in
theorem handle_setHandle (b : Buffer) (k : Handle) (hnone : b.handle = none) :
    (b.setHandle k).handle = some k := by
  unfold setHandle
  rw [hnone, if_neg (by simp)]
  dsimp only
  split <;> split <;> rfl

omit h in
theorem setTabWidth_cases (b : Buffer) (width : Nat) : ∃ tab frontier,
    b.setTabWidth width = { b with tabWidth := tab, frontier := frontier } ∧
      (frontier = 0 ∨ frontier = b.frontier) := by
  unfold setTabWidth
  split
  · exact ⟨_, _, rfl, .inr rfl⟩
  · dsimp only
    split
    · exact ⟨_, _, rfl, .inl rfl⟩
    · exact ⟨_, _, rfl, .inr rfl⟩

theorem keeps_setTabWidth (width : Nat) : b.Keeps s (b.setTabWidth width) s := by
  obtain ⟨tab, frontier, he, hfrontier⟩ := b.setTabWidth_cases width
  rw [he]
  exact keeps_of_store h rfl rfl rfl id (hfrontier.imp_right (⟨rfl, ·⟩))

/-- New lines that have not been highlighted take the place of the old ones. -/
theorem keeps_restart (lines : Array Line) (revision : Nat) (hpos : 0 < lines.size)
    (hnormal : ∀ x ∈ lines.toList, x.endState = .normal) :
    b.Keeps s
      { b with store := { b.store with lines := lines, revision := revision } }.invalidate s := by
  refine ⟨⟨rfl, ⟨0, (Nat.mul_one _).symm⟩, .refl _ _,
    ⟨h.limit_pos, fun _ => rfl, ⟨hpos, h.framed.unchanged, h.framed.changed⟩,
      fun _ _ _ => .inr (Nat.zero_le _), h.registered, h.sound, ?_⟩⟩,
    fun _ _ _ _ i hi => absurd hi (Nat.not_lt_zero i)⟩
  intro x hx
  rw [hnormal x hx]
  exact s.contexts.issued_normal

omit h in
@[simp] theorem texts_setText (b : Buffer) (text : String) :
    (b.setText text).texts = Text.linesOf text := by
  simp [texts, lineList, setText, invalidate, TextStore.setText, Line.ofText, Function.comp_def]

theorem keeps_setText (text : String) : b.Keeps s (b.setText text) s := by
  refine keeps_restart h _ _ ?_ ?_
  · have := Text.linesOf_ne_nil text
    simpa [List.length_pos_iff] using this
  · intro x hx
    obtain ⟨line, -, rfl⟩ := List.mem_map.1 hx
    rfl

theorem keeps_clear : b.Keeps s b.clear s := by
  refine keeps_restart h _ _ (Nat.succ_pos 0) ?_
  intro x hx
  obtain rfl := List.mem_singleton.1 hx
  rfl

/-! ## Answering a rebuild -/

theorem keeps_sync : b.Keeps s (b.sync s).1 (b.sync s).2 := by
  have hshared : s.Moves b.slot (s.takeRebuild b.slot).2 := .takeRebuild _ s
  have hreg : b.slot ∈ (s.takeRebuild b.slot).2.registered := by
    rw [Shared.registered_takeRebuild]
    exact h.registered
  have hb : b.Moves s b (s.takeRebuild b.slot).2 :=
    ⟨rfl, ⟨0, (Nat.mul_one _).symm⟩, hshared, h.elsewhere hreg h.sound (Nat.le_refl _)⟩
  rcases b.sync_cases s with ⟨hp, hs⟩ | ⟨hp, hs⟩
  · have hg : b.Keeps (s.takeRebuild b.slot).2 b.rebuilt (s.takeRebuild b.slot).2 :=
      keeps_of_store hb.orderly rfl rfl rfl id (.inl rfl)
    rw [hs]
    exact ⟨hb.trans hg.toMoves, fun _ _ _ _ i hi => absurd hi (Nat.not_lt_zero i)⟩
  · rw [hs]
    exact ⟨hb, fun hc _ => hc hp⟩

theorem keeps_takeEvents :
    b.Keeps s (b.takeEvents s).2.1 (b.takeEvents s).2.2 :=
  (keeps_sync h).trans
    (keeps_of_store (keeps_sync h).orderly rfl rfl rfl id (.inr ⟨rfl, rfl⟩))

/-! ## Transactions and edits -/

theorem keeps_editStart : b.Keeps s b.editStart s := by
  by_cases hd : b.store.depth = 0
  · have hstart : b.editStart = { b with store :=
        { b.store with depth := 1, changed := false, first := none, last := none } } := by
      simp only [editStart, TextStore.start, if_pos hd]
    rw [hstart]
    refine ⟨⟨rfl, ⟨0, (Nat.mul_one _).symm⟩, .refl _ _,
      ⟨h.limit_pos, h.unhighlighted, ⟨h.framed.lines_pos, fun _ => ⟨rfl, rfl⟩, ?_⟩,
        ?_, h.registered, h.sound, h.issued⟩⟩, ?_⟩
    · intro hc
      cases hc
    · intro _ first hf
      cases hf
    · intro hc hp k hk i hi
      rcases hc hp k hk i hi with hlink | ⟨he, -⟩
      · exact .inl hlink
      · simp [TextStore.editing, hd] at he
  · have hstart : b.editStart =
        { b with store := { b.store with depth := b.store.depth + 1 } } := by
      simp only [editStart, TextStore.start, if_neg hd]
    have hediting : b.store.editing = true := by simp [TextStore.editing]; omega
    rw [hstart]
    refine ⟨⟨rfl, ⟨0, (Nat.mul_one _).symm⟩, .refl _ _,
      ⟨h.limit_pos, h.unhighlighted, ⟨h.framed.lines_pos, h.framed.unchanged, h.framed.changed⟩,
        fun _ => h.window hediting, h.registered, h.sound, h.issued⟩⟩, ?_⟩
    intro hc hp k hk i hi
    rcases hc hp k hk i hi with hlink | ⟨-, ht⟩
    · exact .inl hlink
    · exact .inr ⟨by simp [TextStore.editing], ht⟩

end

/-! ## Edits -/

/-- What an edit comes to: another text for a line, a line split or two lines joined; or nothing,
when it was refused or changes nothing.  Splitting and joining answer a pending rebuild first. -/
inductive Edited (b : Buffer) (s : Shared) : Buffer → Shared → Prop
  | same : Edited b s b s
  | refused : Edited b s (b.sync s).1 (b.sync s).2
  | retext {t : TextStore} {n : Nat} {x : Line} : TextStore.Spliced b.store t n 1 [x] →
      Edited b s { b with store := t } s
  | wrapped {t : TextStore} {n : Nat} {x y : Line} :
      TextStore.Spliced (b.sync s).1.store t n 1 [x, y] →
      Edited b s { (b.sync s).1 with
        store := t
        frontier := if n + 1 < (b.sync s).1.frontier then (b.sync s).1.frontier + 1
          else (b.sync s).1.frontier } (b.sync s).2
  | unwrapped {t : TextStore} {n : Nat} {x : Line} :
      TextStore.Spliced (b.sync s).1.store t n 2 [x] →
      Edited b s { (b.sync s).1 with
        store := t
        frontier := if n + 1 < (b.sync s).1.frontier then (b.sync s).1.frontier - 1
          else (b.sync s).1.frontier } (b.sync s).2

section
variable (b : Buffer) (s : Shared)

theorem edited_insert (line col : Nat) (text : String) :
    b.Edited s (b.insert s line col text).buffer (b.insert s line col text).shared := by
  unfold insert withStore
  cases hi : b.store.insert line col text with
  | error r => exact .same
  | ok t =>
    rcases TextStore.insert_cases _ _ _ _ _ hi with rfl | ⟨x, hsplice⟩
    · exact .same
    · exact .retext hsplice

theorem edited_remove (line start stop : Nat) :
    b.Edited s (b.remove s line start stop).buffer (b.remove s line start stop).shared := by
  unfold remove withStore
  cases hr : b.store.remove line start stop with
  | error r => exact .same
  | ok out =>
    obtain ⟨removed, t⟩ := out
    rcases TextStore.remove_cases _ _ _ _ _ _ hr with rfl | ⟨x, hsplice⟩
    · exact .same
    · exact .retext hsplice

theorem edited_wrap (line col : Nat) :
    b.Edited s (b.wrap s line col).buffer (b.wrap s line col).shared := by
  unfold wrap
  dsimp only
  cases hw : (b.sync s).1.store.wrap line col with
  | error r => exact .refused
  | ok t =>
    obtain ⟨x, y, hsplice⟩ := TextStore.wrap_cases _ _ _ _ hw
    exact .wrapped hsplice

theorem edited_unwrap (line : Nat) :
    b.Edited s (b.unwrap s line).buffer (b.unwrap s line).shared := by
  unfold unwrap
  dsimp only
  cases hu : (b.sync s).1.store.unwrap line with
  | error r => exact .refused
  | ok t =>
    obtain ⟨m, x, rfl, hsplice⟩ := TextStore.unwrap_cases _ _ _ hu
    exact .unwrapped hsplice

end

section
variable {b b' : Buffer} {s s' : Shared} (h : b.Orderly s)
include h

/-- A splice keeps, with the frontier moved so that every line stays on its side of it. -/
theorem keeps_splice {t : TextStore} {n old : Nat} {new : List Line}
    (hsplice : TextStore.Spliced b.store t n old new) (frontier : Nat)
    (hzero : b.frontier = 0 → frontier = 0)
    (hbefore : ∀ i, i < n → i < frontier → i < b.frontier)
    (hafter : ∀ i, n + new.length < i → i < frontier → i - new.length + old < b.frontier) :
    b.Keeps s { b with store := t, frontier := frontier } s := by
  refine ⟨⟨rfl, ⟨0, (Nat.mul_one _).symm⟩, .refl _ _,
    ⟨h.limit_pos, fun hn => hzero (h.unhighlighted hn), hsplice.framed,
      fun _ first hf => .inl (hsplice.first_lt first hf), h.registered, h.sound, ?_⟩⟩, ?_⟩
  · intro x hx
    rcases hsplice.ends_mem x hx with hnormal | ⟨y, hy, hyx⟩
    · rw [hnormal]
      exact s.contexts.issued_normal
    · rw [← hyx]
      exact h.issued y hy
  · intro hc hp k hk i hi
    exact hsplice.links k.language s.contexts b.frontier frontier hbefore hafter (hc hp k hk) i hi

/-- An edit keeps, and so does one that was refused. -/
theorem keeps_edited (he : b.Edited s b' s') : b.Keeps s b' s' := by
  have hsync := keeps_sync h
  cases he with
  | same => exact .refl h
  | refused => exact hsync
  | retext hsplice =>
    exact keeps_splice h hsplice b.frontier id (fun _ _ => id)
      fun i hi hlt => by simp only [List.length_singleton]; omega
  | wrapped hsplice =>
    refine hsync.trans (keeps_splice hsync.orderly hsplice _ ?_ ?_ ?_)
    · intro hz
      rw [if_neg (by omega), hz]
    · intro i hi hlt
      split at hlt <;> omega
    · intro i hi hlt
      simp only [List.length_cons, List.length_nil] at hi ⊢
      split at hlt <;> omega
  | unwrapped hsplice =>
    refine hsync.trans (keeps_splice hsync.orderly hsplice _ ?_ ?_ ?_)
    · intro hz
      rw [if_neg (by omega), hz]
    · intro i hi hlt
      split at hlt <;> omega
    · intro i hi hlt
      simp only [List.length_singleton] at hi ⊢
      split at hlt <;> omega

end

end Highlighting.Buffer

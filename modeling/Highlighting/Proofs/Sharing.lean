import Highlighting.Shared
import Highlighting.Proofs.Interning

/-!
# What one buffer does to the others

The buffers of a session meet in what they share.  An operation on one of them moves it in few
ways: contexts are added, or all are forgotten and then every open buffer has a rebuild pending.
`Moves` says this once, from the point of view of the buffers that did nothing:

    s.Moves own s'  →  another slot has a rebuild pending, or s' forgets nothing that s knows
-/

namespace Highlighting.Shared

/-- The slots that have been given out and not taken back. -/
def registered (s : Shared) : List Nat :=
  s.slots.map (·.1)

/-! ## Rebuilds -/

@[simp] theorem registered_takeRebuild (s : Shared) (slot : Nat) :
    (s.takeRebuild slot).2.registered = s.registered := by
  simp only [registered, takeRebuild, List.map_map]
  apply List.map_congr_left
  intro e _
  simp only [Function.comp]
  split <;> rfl

@[simp] theorem registered_requestRebuild (s : Shared) :
    s.requestRebuild.registered = s.registered := by
  simp [registered, requestRebuild]

theorem pending_takeRebuild_self (s : Shared) (slot : Nat) :
    (s.takeRebuild slot).2.pending slot = false := by
  simp only [pending, takeRebuild, List.any_map, List.any_eq_false]
  intro e _
  simp only [Function.comp]
  split <;> simp_all

/-- Where no rebuild is pending, there is nothing to answer. -/
theorem takeRebuild_of_answered (s : Shared) (slot : Nat) (hp : s.pending slot = false) :
    (s.takeRebuild slot).2 = s := by
  have hslots : s.slots.map (fun e => if e.1 == slot then (e.1, false) else e) = s.slots.map id := by
    refine List.map_congr_left fun e he => ?_
    have hnot : ¬(e.1 == slot && e.2) = true := List.any_eq_false.1 hp e he
    split
    · next hslot =>
      rw [hslot, Bool.true_and, Bool.not_eq_true] at hnot
      exact Prod.ext rfl hnot.symm
    · rfl
  simp only [takeRebuild, hslots, List.map_id]

theorem pending_takeRebuild_of_ne (s : Shared) (slot other : Nat) (h : other ≠ slot) :
    (s.takeRebuild slot).2.pending other = s.pending other := by
  simp only [pending, takeRebuild, List.any_map]
  congr 1
  funext e
  simp only [Function.comp]
  split
  · next he =>
    have : (e.1 == other) = false := by simp_all; omega
    simp [this]
  · rfl

theorem pending_requestRebuild (s : Shared) (slot : Nat) (h : slot ∈ s.registered) :
    s.requestRebuild.pending slot = true := by
  obtain ⟨e, he, rfl⟩ := List.mem_map.1 h
  simp only [pending, requestRebuild, List.any_map, List.any_eq_true]
  exact ⟨e, he, by simp⟩

theorem pending_of_not_mem (s : Shared) (slot : Nat) (h : slot ∉ s.registered) :
    s.pending slot = false := by
  refine List.any_eq_false.2 fun e he hp => h ?_
  rw [Bool.and_eq_true, beq_iff_eq] at hp
  exact List.mem_map.2 ⟨e, he, hp.1⟩

theorem pending_release_of_ne (s : Shared) (slot other : Nat) (h : other ≠ slot) :
    (s.release slot).pending other = s.pending other := by
  simp only [pending, release, List.any_filter]
  congr 1
  funext e
  by_cases he : e.1 = other
  · simp [he, h]
  · simp [he]

@[simp] theorem pending_register (s : Shared) (slot : Nat) :
    s.register.2.pending slot = s.pending slot := by
  simp [pending, register]

/-! ## Resets -/

/-- A reset is granted and forgets every context, or it is refused and forgets none; either way it
may look at the clock. -/
theorem reset_cases (s : Shared) :
    (∃ since pauses, s.suppressed = false ∧ s.reset = (true, { s with
        contexts := s.contexts.emptied, sinceReset := since, pauses := pauses })) ∨
    (∃ since pauses, s.reset = (false, { s with sinceReset := since, pauses := pauses })) := by
  unfold reset
  split
  · exact .inr ⟨s.sinceReset, s.pauses, rfl⟩
  · next hs =>
    have hs : s.suppressed = false := by simpa using hs
    split
    · next hsince => exact .inl ⟨some 0, s.pauses, hs, rfl⟩
    · dsimp only
      split
      · exact .inr ⟨_, _, rfl⟩
      · exact .inl ⟨_, _, hs, rfl⟩

/-! ## Moves -/

/-- Every slot in use has been given out. -/
def Numbered (s : Shared) : Prop :=
  ∀ slot ∈ s.registered, slot < s.nextSlot

/-- What an operation of the buffer with slot `own` may do to what is shared. -/
structure Moves (own : Nat) (s s' : Shared) : Prop where
  sound : s.contexts.Sound → s'.contexts.Sound
  nextId_le : s.contexts.nextId ≤ s'.contexts.nextId
  numbered : s.Numbered → s'.Numbered
  nextSlot_le : s.nextSlot ≤ s'.nextSlot
  sums : s'.sums = s.sums
  registered : ∀ slot ∈ s.registered, slot ≠ own → slot ∈ s'.registered
  others : ∀ slot ∈ s.registered, slot ≠ own →
    s'.pending slot = true ∨
      s'.pending slot = s.pending slot ∧ s.contexts.Extends s'.contexts

namespace Moves

variable {own : Nat} {s s' s'' : Shared}

theorem refl (own : Nat) (s : Shared) : Moves own s s :=
  ⟨id, Nat.le_refl _, id, Nat.le_refl _, rfl, fun _ h _ => h, fun _ _ _ => .inr ⟨rfl, .refl _⟩⟩

theorem trans (h : Moves own s s') (k : Moves own s' s'') : Moves own s s'' where
  sound hs := k.sound (h.sound hs)
  nextId_le := Nat.le_trans h.nextId_le k.nextId_le
  numbered hn := k.numbered (h.numbered hn)
  nextSlot_le := Nat.le_trans h.nextSlot_le k.nextSlot_le
  sums := k.sums.trans h.sums
  registered slot hslot hne := k.registered slot (h.registered slot hslot hne) hne
  others slot hslot hne := by
    rcases k.others slot (h.registered slot hslot hne) hne with hk | ⟨hk, hkx⟩
    · exact .inl hk
    · rcases h.others slot hslot hne with hh | ⟨hh, hhx⟩
      · exact .inl (hk.trans hh)
      · exact .inr ⟨hk.trans hh, hhx.trans hkx⟩

theorem takeRebuild (own : Nat) (s : Shared) : Moves own s (s.takeRebuild own).2 where
  sound := id
  nextId_le := Nat.le_refl _
  numbered hn := by rw [Numbered, registered_takeRebuild]; exact hn
  nextSlot_le := Nat.le_refl _
  sums := rfl
  registered slot hslot _ := by rw [registered_takeRebuild]; exact hslot
  others slot _ hne := .inr ⟨s.pending_takeRebuild_of_ne own slot hne, .refl _⟩

/-- Whatever happened to the contexts, a rebuild is requested afterwards. -/
theorem requestRebuild (hnext : s.contexts.nextId ≤ s'.contexts.nextId)
    (hsound : s.contexts.Sound → s'.contexts.Sound) (hslots : s'.slots = s.slots)
    (hnextSlot : s'.nextSlot = s.nextSlot) (hsums : s'.sums = s.sums) :
    Moves own s s'.requestRebuild := by
  have hreg : s'.requestRebuild.registered = s.registered := by
    rw [registered_requestRebuild, Shared.registered, hslots]; rfl
  refine ⟨hsound, hnext, ?_, Nat.le_of_eq hnextSlot.symm, hsums,
    fun slot hslot _ => hreg ▸ hslot, fun slot hslot _ => .inl (s'.pending_requestRebuild slot ?_)⟩
  · intro hn slot hslot
    rw [hreg] at hslot
    exact Nat.lt_of_lt_of_eq (hn slot hslot) hnextSlot.symm
  · rw [← registered_requestRebuild, hreg]
    exact hslot

/-- Contexts are added and nothing else changes that another buffer sees. -/
theorem extend (hsound : s.contexts.Sound → s'.contexts.Sound)
    (hx : s.contexts.Extends s'.contexts) (hslots : s'.slots = s.slots)
    (hnextSlot : s'.nextSlot = s.nextSlot) (hsums : s'.sums = s.sums) : Moves own s s' := by
  have hreg : s'.registered = s.registered := by rw [Shared.registered, hslots]; rfl
  refine ⟨hsound, hx.nextId_le, ?_, Nat.le_of_eq hnextSlot.symm, hsums,
    fun slot hslot _ => hreg ▸ hslot, fun slot _ _ => .inr ⟨by rw [pending, hslots]; rfl, hx⟩⟩
  intro hn slot hslot
  rw [hreg] at hslot
  exact Nat.lt_of_lt_of_eq (hn slot hslot) hnextSlot.symm

/-- A new slot is given out. -/
theorem register (own : Nat) (s : Shared) : Moves own s s.register.2 where
  sound := id
  nextId_le := Nat.le_refl _
  numbered hn slot hslot := by
    rw [Shared.registered, Shared.register, List.map_append] at hslot
    rcases List.mem_append.1 hslot with hslot | hslot
    · exact Nat.lt_succ_of_lt (hn slot hslot)
    · obtain rfl : slot = s.nextSlot := by simpa using hslot
      exact Nat.lt_succ_self _
  nextSlot_le := Nat.le_succ _
  sums := rfl
  registered slot hslot _ := by
    rw [Shared.registered, Shared.register, List.map_append]
    exact List.mem_append_left _ hslot
  others slot _ _ := .inr ⟨s.pending_register slot, .refl _⟩

/-- The own slot is taken back. -/
theorem release (own : Nat) (s : Shared) : Moves own s (s.release own) where
  sound := id
  nextId_le := Nat.le_refl _
  numbered hn slot hslot := by
    obtain ⟨e, he, rfl⟩ := List.mem_map.1 hslot
    exact hn e.1 (List.mem_map_of_mem (List.mem_filter.1 he).1)
  nextSlot_le := Nat.le_refl _
  sums := rfl
  registered slot hslot hne := by
    obtain ⟨e, he, rfl⟩ := List.mem_map.1 hslot
    exact List.mem_map_of_mem (List.mem_filter.2 ⟨he, by simpa using hne⟩)
  others slot _ hne := .inr ⟨s.pending_release_of_ne own slot hne, .refl _⟩

end Moves

end Highlighting.Shared

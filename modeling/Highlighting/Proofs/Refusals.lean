import Highlighting.Proofs.Strict
import Mathlib.Data.Fintype.EquivFin

/-!
# Refused operations

An operation is refused exactly when it is called outside its contract.  Then nothing has changed,
except that a rebuild which was pending may have been answered, as the operations that split and join
lines do first of all:

    admitted      →  not refused                                        (succeeds_strictly)
    not admitted  →  refused, and nothing has changed                   (refuses_of_not_admits)

Joining several lines takes many steps, none of which is refused after the first; so there is nothing
that would have to be taken back.

On a machine that checks its sums, asking for a line can be refused because of one.  That too changes
nothing (unmoved_ensure); but a search for regions, which asks for many lines, may have scanned some
before.
-/

namespace Highlighting

namespace Buffer

/-- Nothing has changed, except that a rebuild that was pending may have been answered. -/
structure Unmoved (b : Buffer) (s : Shared) (b' : Buffer) (s' : Shared) : Prop where
  /-- The lines with their annotations, the revision, and the transactions with their window. -/
  store : b'.store = b.store
  handle : b'.handle = b.handle
  limit : b'.limit = b.limit
  tabWidth : b'.tabWidth = b.tabWidth
  highlightedUpTo : b'.highlightedUpTo s' = b.highlightedUpTo s
  contexts : s'.contexts = s.contexts
  only : b' = b ∧ s' = s ∨
    s.pending b.slot = true ∧ b' = { b with frontier := 0, events := b.events ++ [.rebuilt] } ∧
      s' = (s.takeRebuild b.slot).2

/-- The operation is refused, and nothing has changed. -/
structure Refuses {α : Type} (b : Buffer) (s : Shared) (o : Outcome α) : Prop where
  result : ∃ r, o.result = .error r
  unmoved : b.Unmoved s o.buffer o.shared

section
variable (b : Buffer) (s : Shared)

theorem Unmoved.refl : b.Unmoved s b s :=
  ⟨rfl, rfl, rfl, rfl, rfl, rfl, .inl ⟨rfl, rfl⟩⟩

/-- Answering a rebuild changes nothing else. -/
theorem unmoved_sync : b.Unmoved s (b.sync s).1 (b.sync s).2 := by
  rcases b.sync_cases s with ⟨hp, hs⟩ | ⟨hp, -⟩
  · have hzero : b.highlightedUpTo s = 0 := if_pos hp
    rw [hs]
    refine ⟨rfl, rfl, rfl, rfl, ?_, rfl, .inr ⟨hp, rfl, rfl⟩⟩
    rw [hzero]
    exact Nat.le_zero.1 (highlightedUpTo_le _ _)
  · rw [b.sync_of_answered s hp]
    exact .refl b s

variable {b s}

theorem Refuses.conclude {α : Type} {o : Outcome α} (h : b.Refuses s o) (answer : α → Answer) :
    b.Refuses s (Session.conclude o answer) := by
  obtain ⟨r, hr⟩ := h.result
  refine ⟨⟨r, ?_⟩, h.unmoved⟩
  show o.result.map answer = _
  rw [hr]
  rfl

theorem refuses_withStore {α : Type} {out : Except Refusal (α × TextStore)}
    (hout : ¬∃ x, out = .ok x) : b.Refuses s (b.withStore s out) := by
  cases out with
  | ok x => exact absurd ⟨x, rfl⟩ hout
  | error r => exact ⟨⟨r, rfl⟩, .refl b s⟩

theorem refuses_wrap {line col : Nat} (hop : ¬b.Admits (.wrap line col)) :
    b.Refuses s (b.wrap s line col) := by
  unfold wrap
  dsimp only
  rw [store_sync]
  cases hw : b.store.wrap line col with
  | ok t => exact absurd ((b.store.wrap_ok_iff line col).1 ⟨t, hw⟩) hop
  | error r => exact ⟨⟨r, rfl⟩, b.unmoved_sync s⟩

theorem refuses_unwrap {line : Nat} (hop : ¬b.Admits (.unwrap line)) :
    b.Refuses s (b.unwrap s line) := by
  unfold unwrap
  dsimp only
  rw [store_sync]
  cases hw : b.store.unwrap line with
  | ok t => exact absurd ((b.store.unwrap_ok_iff line).1 ⟨t, hw⟩) hop
  | error r => exact ⟨⟨r, rfl⟩, b.unmoved_sync s⟩

/-- Outside of transactions, the first of several joinings is refused, and no other is tried. -/
theorem refuses_unwrapEach (line : Nat) (lines : List Nat) (he : b.store.editing ≠ true)
    (hmany : line + 1 < b.lineCount ∨ line ≠ 0) :
    b.Refuses s (b.unwrapEach s (line :: lines)) := by
  have hfirst : b.Refuses s (b.unwrapOne s line) := by
    unfold unwrapOne
    split
    · exact refuses_unwrap fun hop => he hop.1
    · rw [if_pos (by omega)]
      exact refuses_unwrap fun hop => he hop.1
  rw [unwrapEach_cons]
  generalize b.unwrapOne s line = o at hfirst ⊢
  obtain ⟨result, b', s'⟩ := o
  obtain ⟨r, rfl⟩ : ∃ r, result = .error r := hfirst.result
  exact ⟨⟨r, rfl⟩, hfirst.unmoved⟩

theorem refuses_unwrapLines {first last : Nat} (hop : ¬b.Admits (.unwrapLines first last)) :
    b.Refuses s (b.unwrapLines s first last) := by
  unfold unwrapLines
  split
  · exact ⟨⟨_, rfl⟩, .refl b s⟩
  · next hle =>
    split
    · exact ⟨⟨_, rfl⟩, .refl b s⟩
    · next hlt =>
      have hlines : (List.range' first (last + 1 - first)).reverse =
          last :: (List.range' first (last - first)).reverse := by
        rw [show last + 1 - first = last - first + 1 by omega, reverse_range'_succ,
          show first + (last - first) = last by omega]
      have hone : b.lineCount ≠ 1 := fun hone => hop ⟨by omega, by omega, .inr hone⟩
      rw [hlines]
      exact refuses_unwrapEach last _ (fun he => hop ⟨by omega, by omega, .inl he⟩) (by omega)

/-- An operation that is not admitted is refused, and nothing has changed. -/
theorem refuses_of_not_admits {op : BufferOp} (hop : ¬b.Admits op) :
    b.Refuses s (Session.runOnBuffer b s op) := by
  cases op with
  | insert line col text =>
    refine Refuses.conclude (refuses_withStore ?_) _
    rintro ⟨x, hx⟩
    cases hi : b.store.insert line col text with
    | ok t => exact hop ((b.store.insert_ok_iff line col text).1 ⟨t, hi⟩)
    | error r =>
      rw [hi] at hx
      cases hx
  | remove line start stop =>
    exact Refuses.conclude (refuses_withStore fun hx =>
      hop ((b.store.remove_ok_iff line start stop).1 hx)) _
  | wrap line col => exact (refuses_wrap hop).conclude _
  | unwrap line => exact (refuses_unwrap hop).conclude _
  | unwrapLines first last => exact (refuses_unwrapLines hop).conclude _
  | fold line =>
    refine Refuses.conclude ?_ _
    unfold foldRange
    rw [if_pos (Nat.not_lt.1 hop)]
    exact ⟨⟨_, rfl⟩, .refl b s⟩
  | line n =>
    refine ⟨?_, .refl b s⟩
    show ∃ r, (b.store.line n).map Answer.line = .error r
    cases hl : b.store.line n with
    | ok l => exact absurd ((b.store.line_ok_iff n).1 ⟨l, hl⟩) hop
    | error r => exact ⟨r, rfl⟩
  | _ => exact absurd trivial hop

end

end Buffer

namespace Session

end Session

end Highlighting

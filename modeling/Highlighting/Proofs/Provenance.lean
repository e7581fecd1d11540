import Highlighting.Proofs.Answering

/-!
# Where the buffers of a session come from

After a step of a session, each of its buffers has stayed as it was, has been used, has been given
a definition, or has just been opened.  `Came` says so for one buffer, and says what has become of
the rebuild that may be pending for it:

    e ∈ (s.step op).2.buffers  →  Came s op (s.step op).2 e                       (came_step)

A buffer that stayed has a rebuild pending when it had one, or when the step has asked for
rebuilds.
-/

namespace Highlighting.Session

/-- Does a step ask the open buffers to rebuild?  It does so when it is told to, and when a pass
that it enters is granted a reset. -/
def asksRebuild (s : Session) : Op → Bool
  | .requestRebuild => true
  | .buffer name op =>
    (s.buffers.lookup name).any fun b => (b.calls s.shared op).any (·.resets)
  | _ => false

/-- Where a buffer comes from that is there after a step. -/
inductive Came (s : Session) (op : Op) (s' : Session) (e : String × Buffer) : Prop
  | stayed : e ∈ s.buffers → (∀ bop, op ≠ .buffer e.1 bop) →
      s'.shared.pending e.2.slot = (s.shared.pending e.2.slot || s.asksRebuild op) → Came s op s' e
  | used {b : Buffer} {bop : BufferOp} : s.buffers.lookup e.1 = some b → op = .buffer e.1 bop →
      e.2 = (runOnBuffer b s.shared bop).buffer →
      s'.shared = (runOnBuffer b s.shared bop).shared → Came s op s' e
  | given {b : Buffer} (h : Handle) : (e.1, b) ∈ s.buffers → op.aside = true →
      e.2 = b.setHandle h → s'.shared = s.shared → Came s op s' e
  | opened {name : String} {text : Option String} {settings : Option Settings} :
      op = .newBuffer name text settings →
      e.2.Opened (settings.getD s.settings).maxContexts s.shared.nextSlot →
      s'.shared.pending e.2.slot = false → Came s op s' e

section
variable {s s' : Session} (h : s.Orderly) {op : Op} {e : String × Buffer}

/-- A buffer that stays while nothing is asked of it. -/
theorem came_idle (hop : ∀ name bop, op ≠ .buffer name bop) (hasks : s.asksRebuild op = false)
    (he : e ∈ s.buffers) (hpending : s'.shared.pending e.2.slot = s.shared.pending e.2.slot) :
    Came s op s' e :=
  .stayed he (hop e.1) (by rw [hpending, hasks, Bool.or_false])

theorem came_aside (hop : op.aside = true) (he : e ∈ s.buffers)
    (hpending : s'.shared.pending e.2.slot = s.shared.pending e.2.slot) : Came s op s' e := by
  refine came_idle ?_ ?_ he hpending
  · rintro _ _ rfl
    cases hop
  · cases op <;> first | rfl | cases hop

include h

theorem pending_closeBuffer (name : String) (he : e ∈ (s.closeBuffer name).buffers) :
    (s.closeBuffer name).shared.pending e.2.slot = s.shared.pending e.2.slot := by
  unfold closeBuffer at he ⊢
  split at he
  · rfl
  · next b hb =>
    obtain ⟨hold, hne⟩ := mem_without he
    exact s.shared.pending_release_of_ne b.slot e.2.slot fun heq =>
      hne (h.distinct e hold _ (mem_of_lookup hb) heq)

/-- The slot of a buffer that is opened has not been asked for anything. -/
theorem pending_nextSlot (name : String) :
    (s.closeBuffer name).shared.pending s.shared.nextSlot = false := by
  have hnumbered := (keeps_closeBuffer h name).orderly.numbered
  have hnext := s.nextSlot_closeBuffer name
  exact Shared.pending_of_not_mem _ _ fun hmem => Nat.lt_irrefl _ (hnext ▸ hnumbered _ hmem)

/-- Each buffer that is there after a step came from somewhere. -/
theorem came_step (op : Op) (he : e ∈ (s.step op).2.buffers) : Came s op (s.step op).2 e := by
  have hstep := buffersStep h op
  generalize (s.step op).2 = s' at hstep he ⊢
  cases hstep with
  | aside hop hbuffers hpending =>
    have hold : e ∈ s.buffers := hbuffers ▸ he
    exact came_aside hop hold (hpending e hold)
  | asked =>
    refine .stayed he (fun _ heq => by cases heq) ?_
    have hreg := (h.buffers e he).registered
    show s.shared.requestRebuild.pending e.2.slot = (_ || true)
    rw [s.shared.pending_requestRebuild _ hreg, Bool.or_true]
  | @missing name bop hnone =>
    refine .stayed he (fun bop' heq => ?_) (by simp [asksRebuild, hnone])
    have hname : name ≠ e.1 := by simpa using List.lookup_eq_none_iff.1 hnone e he
    cases heq
    exact hname rfl
  | @used name b bop hb =>
    have hmem := mem_of_lookup hb
    rcases mem_put he with rfl | ⟨hold, hne⟩
    · exact .used hb rfl rfl rfl
    · refine .stayed hold (fun bop' heq => ?_) ?_
      · cases heq
        exact hne rfl
      · have hasks : s.asksRebuild (.buffer name bop) = (b.calls s.shared bop).any (·.resets) := by
          simp [asksRebuild, hb]
        rw [hasks]
        exact Buffer.pending_runOnBuffer (h.buffers _ hmem) bop e.2.slot
          (h.buffers e hold).registered fun heq => hne (h.distinct e hold _ hmem heq)
  | @given _ name b k hop hb =>
    rcases mem_put he with rfl | ⟨hold, -⟩
    · exact .given k (mem_of_lookup hb) hop rfl rfl
    · exact came_aside hop hold rfl
  | @opened name text settings _ b hopened hbuffers hpending =>
    rw [hbuffers] at he
    rcases mem_put he with rfl | ⟨hold, -⟩
    · exact .opened rfl hopened ((hpending _).trans (hopened.slot ▸ pending_nextSlot h name))
    · exact came_idle (fun _ _ heq => by cases heq) rfl (mem_closeBuffer hold)
        ((hpending _).trans (pending_closeBuffer h name hold))
  | closed name =>
    exact came_idle (fun _ _ heq => by cases heq) rfl (mem_closeBuffer he)
      (pending_closeBuffer h name he)

end

end Highlighting.Session
